import Mathlib
import Descent.Proofs.Exact
import Descent.Strategy

/-! A constant added to the values of a line: in exact arithmetic the searches make the same probes
and end with the same step, at a value that is greater by the constant. -/
namespace Descent

namespace Traced
variable {E F α α' β β' : Type} {r : Traced E F α} {f : α → Traced E F β} {g : β → β'}

def map (g : α → β) (r : Traced E F α) : Traced E F β := ⟨r.outcome.map g, r.events⟩

theorem map_id (r : Traced E F α) : r.map id = r := by
  obtain ⟨outcome, events⟩ := r
  cases outcome with
  | error e => rfl
  | ok a => rfl

/-- A function of the first result goes through to the second part. -/
theorem map_bind {h : α → α'} {f' : α' → Traced E F β'} (hf : ∀ a, f' (h a) = (f a).map g) :
    r.map h >>= f' = (r >>= f).map g := by
  cases hr : r.outcome with
  | error e =>
    have hm : (r.map h).outcome = .error e := by rw [map, hr]; rfl
    rw [bind_error hr, bind_error hm]
    rfl
  | ok a =>
    have hm : (r.map h).outcome = .ok (h a) := by rw [map, hr]; rfl
    rw [bind_ok hr, bind_ok hm, hf]
    rfl

theorem bind_eq_map {f' : α → Traced E F β'} (hf : ∀ a, f' a = (f a).map g) :
    r >>= f' = (r >>= f).map g := by
  cases hr : r.outcome with
  | error e =>
    rw [bind_error hr, bind_error hr]
    rfl
  | ok a =>
    rw [bind_ok hr, bind_ok hr, hf]
    rfl

end Traced

/-- A choice goes through a function of its results. -/
theorem ite_eq_apply {α β : Type} {p p' : Prop} [Decidable p] [Decidable p'] {g : α → β} {x y : α}
    {x' y' : β} (h : p' ↔ p) (hx : x' = g x) (hy : y' = g y) :
    (if p' then x' else y') = g (if p then x else y) := by
  rw [apply_ite g, if_congr h hx hy]

theorem bind_eq_map {F α β β' : Type} {x : Except F α} {f : α → Except F β} {g : β → β'}
    {f' : α → Except F β'} (hf : ∀ a, f' a = (f a).map g) : x >>= f' = (x >>= f).map g := by
  cases x with
  | error e => rfl
  | ok a => exact hf a

variable {K : Type}

section
variable [Add K] (C : K)

/-- The line with a constant added to its values. -/
def Line.raise (l : Line K) : Line K := ⟨fun t => (l.value t).map (· + C), l.slope⟩

def Sample.raise (s : Sample K) : Sample K := { s with value := s.value + C }

def Tangent.raise (t : Tangent K) : Tangent K := { t with value := t.value + C }

def Step.raise (s : Step K) : Step K := { s with value := s.value + C }

def Found.raise (f : Found K) : Found K := { f with value := f.value + C }

def Conditions.raise (c : Conditions K) : Conditions K := { c with value := c.value + C }

def Zoom.State.raise (s : Zoom.State K) : Zoom.State K :=
  { s with lo := s.lo.raise C, hi := s.hi.raise C }

def Zoom.Verdict.raise : Zoom.Verdict K → Zoom.Verdict K
  | accepted found => accepted (found.raise C)
  | narrowed s => narrowed (s.raise C)

def Wolfe.Doubling.State.raise (s : Wolfe.Doubling.State K) : Wolfe.Doubling.State K :=
  { s with last := s.last.raise C }

def Wolfe.Doubling.Verdict.raise : Wolfe.Doubling.Verdict K → Wolfe.Doubling.Verdict K
  | accepted found => accepted (found.raise C)
  | bracketed s => bracketed (s.raise C)
  | descending s => descending (s.raise C)

def Wolfe.Options.raise (o : Wolfe.Options K) : Wolfe.Options K :=
  { o with previous := o.previous.map (· + C) }

def Bracket.raise (s : Bracket K) : Bracket K :=
  { s with fa := s.fa + C, fb := s.fb + C, fc := s.fc + C }

def Bracket.Verdict.raise : Bracket.Verdict K → Bracket.Verdict K
  | found s => found (s.raise C)
  | next s => next (s.raise C)

def Brent.State.raise (s : Brent.State K) : Brent.State K :=
  { s with fx := s.fx + C, fw := s.fw + C, fv := s.fv + C }

end

variable [Field K] [LinearOrder K] [IsStrictOrderedRing K] [SquareRoot K] {C : K} {l : Line K}
  {c : Conditions K}

theorem tooHigh_raise (c : Conditions K) (s : Sample K) :
    (c.raise C).TooHigh (s.raise C) ↔ c.TooHigh s := by
  unfold Conditions.TooHigh
  have h : c.value + C + c.c1 * s.step * c.slope = c.value + c.c1 * s.step * c.slope + C := by ring
  change s.value + C > c.value + C + c.c1 * s.step * c.slope ↔ _
  rw [h]
  exact add_lt_add_iff_right C

omit [IsStrictOrderedRing K] in
theorem interpolate_raise (lo : Tangent K) (hi : Sample K) :
    interpolate (lo.raise C) (hi.raise C) = interpolate lo hi := by
  have h : (hi.raise C).value - (lo.raise C).value = hi.value - lo.value :=
    add_sub_add_right_eq_sub _ _ _
  unfold interpolate
  rw [h]
  rfl

namespace Zoom
variable {s : State K}

theorem step_raise : step (l.raise C) (c.raise C) (s.raise C) = (step l c s).map (.raise C) := by
  have hi : interpolate (s.raise C).lo (s.raise C).hi = interpolate s.lo s.hi :=
    interpolate_raise _ _
  unfold step
  rw [hi]
  apply Traced.bind_eq_map
  intro t
  apply Traced.map_bind (r := l.valueAt t)
  intro v
  apply ite_eq_apply
  · exact or_congr (tooHigh_raise c ⟨t, v⟩) (add_le_add_iff_right C)
  · rfl
  apply Traced.bind_eq_map
  intro d
  apply ite_eq_apply Iff.rfl
  · rfl
  have hend : (if d * ((s.raise C).hi.step - (s.raise C).lo.step) ≥ 0.0 then
        (s.raise C).lo.toSample else (s.raise C).hi) =
      (if d * (s.hi.step - s.lo.step) ≥ 0.0 then s.lo.toSample else s.hi).raise C :=
    ite_eq_apply Iff.rfl rfl rfl
  rw [hend]
  rfl

omit [IsStrictOrderedRing K] in
theorem giveUp_raise (s : State K) : giveUp (s.raise C) = (giveUp s).map (.raise C) := rfl

theorem run_raise (budget : ℕ) (s : State K) :
    run (l.raise C) (c.raise C) budget (s.raise C) = (run l c budget s).map (.raise C) := by
  induction budget generalizing s with
  | zero => exact giveUp_raise s
  | succ budget ih =>
    rw [run, run, step_raise]
    apply Traced.map_bind
    intro w
    cases w with
    | accepted found => rfl
    | narrowed s =>
      apply ite_eq_apply Iff.rfl
      · exact giveUp_raise s
      · exact ih s

end Zoom

namespace Wolfe

namespace Doubling
variable {s : State K}

theorem step_raise : step (l.raise C) (c.raise C) (s.raise C) = (step l c s).map (.raise C) := by
  unfold step
  apply Traced.map_bind (r := l.valueAt s.trial)
  intro v
  apply ite_eq_apply
  · exact or_congr (tooHigh_raise c ⟨s.trial, v⟩)
      (and_congr Iff.rfl (add_le_add_iff_right C))
  · rfl
  apply Traced.bind_eq_map
  intro d
  apply ite_eq_apply Iff.rfl
  · rfl
  apply ite_eq_apply Iff.rfl
  · rfl
  · rfl

theorem run_raise (maxZoom budget : ℕ) (s : State K) :
    run (l.raise C) (c.raise C) maxZoom budget (s.raise C) =
      (run l c maxZoom budget s).map (.raise C) := by
  induction budget generalizing s with
  | zero => rfl
  | succ budget ih =>
    rw [run, run, step_raise]
    apply Traced.map_bind
    intro w
    cases w with
    | accepted found => rfl
    | bracketed z => exact Zoom.run_raise maxZoom z
    | descending s => exact ih s

end Doubling

theorem refine_raise (s : Step K) (d : K) :
    refine (l.raise C) (c.raise C) (s.raise C) d = (refine l c s d).map (.raise C) := by
  unfold refine
  apply ite_eq_apply Iff.rfl
  · rfl
  apply Traced.bind_eq_map
  intro t
  apply ite_eq_apply Iff.rfl
  · rfl
  apply Traced.map_bind (r := l.valueAt t)
  intro v
  apply ite_eq_apply (tooHigh_raise c ⟨t, v⟩)
  · rfl
  apply Traced.bind_eq_map
  intro d'
  exact congrArg pure (ite_eq_apply Iff.rfl rfl rfl)

omit [IsStrictOrderedRing K] in
theorem firstStep_raise (value slope previous : K) :
    firstStep (value + C) slope (previous + C) = firstStep value slope previous := by
  unfold firstStep
  rw [add_sub_add_right_eq_sub]

theorem find_raise (o : Options K) :
    find (l.raise C) (o.raise C) = (find l o).map (Prod.map (.raise C) (.raise C)) := by
  unfold find
  dsimp only
  apply ite_eq_apply Iff.rfl
  · rfl
  apply Traced.map_bind (r := l.valueAt 0.0)
  intro value
  apply Traced.bind_eq_map
  intro slope
  apply ite_eq_apply Iff.rfl
  · rfl
  have hrest : ∀ trial,
      (Doubling.run (l.raise C) ⟨value + C, slope, o.c1, o.c2⟩ o.maxZoom.toNat o.maxIter.toNat
          ⟨⟨⟨0.0, value + C⟩, slope⟩, trial, true, 1, 1⟩ >>= fun found =>
        pure ((⟨value + C, slope, o.c1, o.c2⟩ : Conditions K), found)) =
      (Doubling.run l ⟨value, slope, o.c1, o.c2⟩ o.maxZoom.toNat o.maxIter.toNat
          ⟨⟨⟨0.0, value⟩, slope⟩, trial, true, 1, 1⟩ >>= fun found =>
        pure ((⟨value, slope, o.c1, o.c2⟩ : Conditions K), found)).map
          (Prod.map (.raise C) (.raise C)) := by
    intro trial
    have hrun := Doubling.run_raise (C := C) (l := l) (c := ⟨value, slope, o.c1, o.c2⟩)
      o.maxZoom.toNat o.maxIter.toNat ⟨⟨⟨0.0, value⟩, slope⟩, trial, true, 1, 1⟩
    exact (congrArg (· >>= _) hrun).trans (Traced.map_bind fun found => rfl)
  cases hp : o.previous with
  | none =>
    have hp' : (o.raise C).previous = none := by rw [Options.raise, hp]; rfl
    rw [hp']
    exact Traced.bind_eq_map hrest
  | some p =>
    have hp' : (o.raise C).previous = some (p + C) := by rw [Options.raise, hp]; rfl
    rw [hp']
    dsimp only
    rw [firstStep_raise]
    exact Traced.bind_eq_map hrest

/-- The Wolfe search with the constant added to its values and to the value before the start. -/
theorem search_raise (o : Options K) :
    search (l.raise C) (o.raise C) = (search l o).map (.raise C) := by
  unfold search
  rw [find_raise]
  apply Traced.map_bind
  rintro ⟨c, found⟩
  cases he : found.ending with
  | accepted d =>
    have he' : (found.raise C).ending = .accepted d := he
    simp only [Prod.map, he, he']
    exact refine_raise found.toStep d
  | collapsed =>
    have he' : (found.raise C).ending = .collapsed := he
    simp only [Prod.map, he, he']
    rfl
  | exhausted =>
    have he' : (found.raise C).ending = .exhausted := he
    simp only [Prod.map, he, he']
    rfl

end Wolfe

namespace Bracket
variable {s : Bracket K}

omit [IsStrictOrderedRing K] in
theorem vertex_raise (s : Bracket K) : (s.raise C).vertex = s.vertex := by
  have hbc : (s.raise C).fb - (s.raise C).fc = s.fb - s.fc := add_sub_add_right_eq_sub _ _ _
  have hba : (s.raise C).fb - (s.raise C).fa = s.fb - s.fa := add_sub_add_right_eq_sub _ _ _
  unfold vertex
  rw [hbc, hba]
  rfl

theorem expand_raise (growLimit : K) (s : Bracket K) :
    expand (l.raise C) growLimit (s.raise C) =
      (expand l growLimit s).map (Prod.map (.raise C) id) := by
  unfold expand
  rw [vertex_raise]
  apply Traced.bind_eq_map
  intro u
  apply ite_eq_apply Iff.rfl
  · apply Traced.map_bind (r := l.valueAt u)
    intro fu
    apply ite_eq_apply (add_lt_add_iff_right C)
    · rfl
    apply ite_eq_apply (add_lt_add_iff_right C)
    · rfl
    exact Traced.map_bind (r := l.valueAt _) fun fw => rfl
  apply ite_eq_apply Iff.rfl
  · apply Traced.map_bind (r := l.valueAt u)
    intro fu
    apply ite_eq_apply (add_lt_add_iff_right C)
    · exact Traced.map_bind (r := l.valueAt _) fun fw => rfl
    · rfl
  apply ite_eq_apply Iff.rfl
  · exact Traced.map_bind (r := l.valueAt _) fun fu => rfl
  · exact Traced.map_bind (r := l.valueAt _) fun fw => rfl

theorem run_raise (o : Options K) (budget : ℕ) (s : Bracket K) (nfev : ℕ) :
    run (l.raise C) o budget (s.raise C) nfev =
      (run l o budget s nfev).map (Prod.map (.raise C) id) := by
  induction budget generalizing s nfev with
  | zero => rfl
  | succ budget ih =>
    rw [run, run]
    apply ite_eq_apply (add_le_add_iff_right C)
    · rfl
    rw [expand_raise]
    apply Traced.map_bind
    rintro ⟨w, k⟩
    cases w with
    | found s => rfl
    | next s => exact ih s (nfev + k)

theorem initial_raise (a b : K) : initial (l.raise C) a b = (initial l a b).map (.raise C) := by
  unfold initial
  apply Traced.map_bind (r := l.valueAt a)
  intro fa
  apply Traced.map_bind (r := l.valueAt b)
  intro fb
  by_cases h : fb > fa
  · have h' : fb + C > fa + C := (add_lt_add_iff_right C).mpr h
    rw [if_pos h, if_pos h']
    exact Traced.map_bind (r := l.valueAt _) fun fc => rfl
  · have h' : ¬ fb + C > fa + C := mt (add_lt_add_iff_right C).mp h
    rw [if_neg h, if_neg h']
    exact Traced.map_bind (r := l.valueAt _) fun fc => rfl

theorem search_raise (a b : K) (o : Options K) :
    search (l.raise C) a b o = (search l a b o).map (Prod.map (.raise C) id) := by
  unfold search
  rw [initial_raise]
  exact Traced.map_bind fun s => run_raise o _ s 3

end Bracket

namespace Brent
variable {s : State K}

omit [IsStrictOrderedRing K] in
theorem propose_raise (tol : K) (s : State K) :
    (s.raise C).propose tol = (s.propose tol).map (.raise C) := by
  have hv : (s.raise C).fx - (s.raise C).fv = s.fx - s.fv := add_sub_add_right_eq_sub _ _ _
  have hw : (s.raise C).fx - (s.raise C).fw = s.fx - s.fw := add_sub_add_right_eq_sub _ _ _
  unfold State.propose
  rw [hv, hw]
  apply ite_eq_apply Iff.rfl
  · apply ite_eq_apply Iff.rfl
    · rfl
    exact bind_eq_map fun d => rfl
  · rfl

theorem update_raise (s : State K) (u fu : K) :
    (s.raise C).update u (fu + C) = (s.update u fu).raise C := by
  have hle : ∀ a : K, fu + C ≤ a + C ↔ fu ≤ a := fun a => add_le_add_iff_right C
  unfold State.update
  apply ite_eq_apply (hle s.fx)
  · by_cases hu : u ≥ s.x
    · have hu' : u ≥ (s.raise C).x := hu
      rw [if_pos hu, if_pos hu']
      rfl
    · have hu' : ¬ u ≥ (s.raise C).x := hu
      rw [if_neg hu, if_neg hu']
      rfl
  -- the order of the trial among the two other points does not depend on how the interval is cut
  have hrest : ∀ t t' : State K, t' = t.raise C →
      (if fu + C ≤ s.fw + C || s.w == s.x then
          { t' with v := s.w, w := u, fv := s.fw + C, fw := fu + C }
        else if fu + C ≤ s.fv + C || s.v == s.x || s.v == s.w then { t' with v := u, fv := fu + C }
        else t') =
      (if fu ≤ s.fw || s.w == s.x then { t with v := s.w, w := u, fv := s.fw, fw := fu }
        else if fu ≤ s.fv || s.v == s.x || s.v == s.w then { t with v := u, fv := fu }
        else t).raise C := by
    rintro t _ rfl
    apply ite_eq_apply (by simp only [hle])
    · rfl
    apply ite_eq_apply (by simp only [hle])
    · rfl
    · rfl
  exact hrest _ _ (ite_eq_apply Iff.rfl rfl rfl)

theorem step_raise (tol : K) (s : State K) :
    step (l.raise C) tol (s.raise C) = (step l tol s).map (.raise C) := by
  unfold step
  rw [propose_raise]
  apply Traced.map_bind (r := liftM (s.propose tol))
  intro t
  apply Traced.map_bind (r := l.valueAt (t.trial tol))
  intro fu
  exact congrArg pure (update_raise t _ fu)

theorem run_raise (o : Options K) (budget : ℕ) (s : State K) (nfev : ℕ) :
    run (l.raise C) o budget (s.raise C) nfev = (run l o budget s nfev).map (.raise C) := by
  induction budget generalizing s nfev with
  | zero => rfl
  | succ budget ih =>
    rw [run, run]
    apply ite_eq_apply Iff.rfl
    · rfl
    rw [step_raise]
    exact Traced.map_bind fun s => ih s (nfev + 1)

/-- The search without derivatives with the constant added to its values. -/
theorem bracketAndSearch_raise (o : Options K) :
    bracketAndSearch (l.raise C) o = (bracketAndSearch l o).map (.raise C) := by
  unfold bracketAndSearch
  rw [Bracket.search_raise]
  apply Traced.map_bind
  rintro ⟨s, nfev⟩
  have hfound : search (l.raise C) s.a s.b s.c (s.fb + C) o =
      (search l s.a s.b s.c s.fb o).map (.raise C) :=
    run_raise o _ (.initial s.a s.b s.c s.fb) 0
  exact (congrArg (· >>= _) hfound).trans (Traced.map_bind fun found => rfl)

end Brent

/-- A search does not see a constant that is added to the values of the line and to the hint: it adds
it to the value that it ends with. -/
def Strategy.Offsets (st : Strategy K) : Prop :=
  ∀ (C : K) (k : ℕ) (l : Line K) (hint : K),
    st.search k (l.raise C) (some (hint + C)) = (st.search k l (some hint)).map (.raise C)

theorem Strategy.offsets_of_standard {st : Strategy K}
    (hs : (∃ w, st = .wolfe w) ∨ ∃ b, st = .brent b) : st.Offsets := by
  intro C k l hint
  rcases hs with ⟨w, rfl⟩ | ⟨b, rfl⟩
  · exact Wolfe.search_raise { w with previous := some hint }
  · exact Brent.bracketAndSearch_raise b

end Descent
