import Descent.Proofs.GradientCheck
import Descent.Proofs.Run.Shadow

/-! A run whose gradients are checked beside one whose gradients are not: as long as no check fails,
the checks only add their values. -/
namespace Descent
variable {K : Type} [Scalar K] {n : Nat}

namespace GradientCheck
variable {f : Objective K n} {g : List K} {x : Vector K n} {o : Options K}

/-- The points around `x` at which a check evaluates the objective, for one component. -/
def probesAt (step : K) (x : Vector K n) (k : Fin n) : List (Vector K n) :=
  [x.get k - 2.0 * step, x.get k - step, x.get k + step, x.get k + 2.0 * step].map
    (x.set k · k.isLt)

/-- The points around `x` at which a check evaluates the objective. -/
def probes (step : K) (x : Vector K n) : List (Vector K n) :=
  (List.finRange n).flatMap (probesAt step x)

theorem points_of_component {k : Fin n} {s : State K n}
    (h : (component f g x o k s).outcome = .ok ()) :
    (component f g x o k s).state.points = s.points ++ probesAt o.step x k := by
  rw [state_of_component h]
  rfl

theorem points_of_components {ks : List (Fin n)} {s : State K n}
    (h : (components f g x o ks s).outcome = .ok ()) :
    (components f g x o ks s).state.points = s.points ++ ks.flatMap (probesAt o.step x) := by
  induction ks generalizing s with
  | nil => exact (List.append_nil _).symm
  | cons k ks ih =>
    obtain ⟨hk, heq⟩ := components_cons h
    rw [heq] at h ⊢
    rw [ih h, points_of_component hk, List.flatMap_cons, List.append_assoc]

/-- A check that succeeds has evaluated the objective at all its points. -/
theorem points_of_run {work : Vector K n} (h : (run f g x o work).outcome = .ok ()) :
    (run f g x o work).state.points = probes o.step x :=
  points_of_components h

end GradientCheck

namespace Event
variable {step : K} {xs ys : List (Vector K n)} {es es' fs fs' : List (Event K n)}

/-- The values that a check at `x` takes. -/
def probes (step : K) (x : Vector K n) : List (Event K n) :=
  (GradientCheck.probes step x).map .value

theorem calls_probes (step : K) (x : Vector K n) : calls (probes step x) = probes step x := by
  simp [calls, probes, isCall]

/-- The second list is the first, with the values of a check at `x` put in after the gradient at
`x`, for each `x` of `xs` in turn. -/
inductive Woven (step : K) :
    List (Vector K n) → List (Event K n) → List (Event K n) → Prop
  | nil : Woven step [] [] []
  | call {xs : List (Vector K n)} {es es' : List (Event K n)} (e : Event K n)
      (h : Woven step xs es es') : Woven step xs (e :: es) (e :: es')
  | check {xs : List (Vector K n)} {es es' : List (Event K n)} (x : Vector K n)
      (h : Woven step xs es es') :
      Woven step (x :: xs) (.gradient x :: es) (.gradient x :: (probes step x ++ es'))

theorem woven_refl (step : K) (es : List (Event K n)) : Woven step [] es es := by
  induction es with
  | nil => exact .nil
  | cons e es ih => exact .call e ih

theorem Woven.append (h : Woven step xs es es') (h' : Woven step ys fs fs') :
    Woven step (xs ++ ys) (es ++ fs) (es' ++ fs') := by
  induction h with
  | nil => exact h'
  | call e h ih => exact .call e ih
  | check x h ih =>
    rw [List.cons_append, List.cons_append, List.cons_append, List.append_assoc]
    exact .check x ih

end Event

/-- The run with `d` more values. -/
def Run.later (d : Nat) (r : Run K n) : Run K n := r.shadowed r.history r.search d

omit [Scalar K] in
theorem Run.later_later (a b : Nat) (r : Run K n) : (r.later a).later b = r.later (a + b) := by
  simp only [later, shadowed, Nat.add_assoc]

/-- The second part does what the first does and checks the gradients at `xs` in between. The second
run has counted `d` more values before. -/
structure Turn.Verified (step : K) (d : Nat) (xs : List (Vector K n)) (t t' : Turn K n) :
    Prop where
  run : t'.run = t.run.later (d + 4 * n * xs.length)
  exit : t'.exit = t.exit
  calls : Event.Woven step xs (Event.calls t.events) (Event.calls t'.events)

namespace Turn
variable {step : K} {d : Nat} {xs ys : List (Vector K n)} {t t' : Turn K n}
  {f f' : Run K n → Turn K n}

/-- The parts are the same but for the number of values. -/
theorem alike_of_same (h : t.Beside (Shadow.same.coupling d) t') :
    t'.run = t.run.later d ∧ t'.exit = t.exit ∧ Event.calls t'.events = Event.calls t.events := by
  obtain ⟨⟨hist, l, rfl, rfl, hrun⟩, hexit, hcalls⟩ := Shadow.alike_of_beside h
  exact ⟨hrun, hexit, hcalls⟩

theorem verified_of_same (step : K) (h : t.Beside (Shadow.same.coupling d) t') :
    t.Verified step d [] t' := by
  obtain ⟨hrun, hexit, hcalls⟩ := alike_of_same h
  refine ⟨hrun, hexit, ?_⟩
  rw [hcalls]
  exact Event.woven_refl step _

theorem Verified.andThen (h : t.Verified step d xs t') (he : t.exit = none)
    (hf : (f t.run).Verified step (d + 4 * n * xs.length) ys (f' t'.run)) :
    (t.andThen f).Verified step d (xs ++ ys) (t'.andThen f') := by
  rw [andThen_of_none he, andThen_of_none (h.exit.trans he)]
  refine ⟨?_, hf.exit, ?_⟩
  · have hlen : d + 4 * n * xs.length + 4 * n * ys.length = d + 4 * n * (xs ++ ys).length := by
      rw [List.length_append, Nat.mul_add, Nat.add_assoc]
    rw [← hlen]
    exact hf.run
  · dsimp only
    rw [Event.calls_append, Event.calls_append]
    exact h.calls.append hf.calls

theorem Verified.andThen_of_some {e : Exit K} (h : t.Verified step d xs t') (he : t.exit = some e) :
    (t.andThen f).Verified step d xs (t'.andThen f') := by
  rw [Turn.andThen_of_some he, Turn.andThen_of_some (h.exit.trans he)]
  exact h

end Turn

namespace Run
variable {s : Setup K n} {v : Bool} {k d : Nat} {r r' : Run K n} {e : Fault K}

/-- An iteration up to its gradient. -/
def approach (s : Setup K n) (r : Run K n) : Turn K n :=
  (r.testZero s).andThen fun r => (r.descend s).andThen fun r =>
    (r.testValue s).andThen (differentiate s)

/-- An iteration from its gradient on, once it has been checked. -/
def depart (s : Setup K n) (r : Run K n) : Turn K n := (r.testGradient s).andThen (redirect s)

theorem iterate_eq_approach : iterate s v k r =
    ({ r with nit := k }.approach s).andThen fun r => (r.checked s v).andThen (depart s) := by
  have hdepart : depart s = fun r => (r.testGradient s).andThen (redirect s) := rfl
  unfold iterate approach
  rw [checked_eq, hdepart]
  simp only [Turn.andThen_assoc]

/-- The iteration comes to a gradient, at the point to which it has moved. -/
structure Arrives (s : Setup K n) (r : Run K n) (step : Step K) (u : Vector K n) : Prop where
  searches : r.Searches s step
  unsteady : ¬ (r.moved s step).Steady s
  gradient : s.vectorGradient (r.moved s step).x = .ok u

/-- The check of a gradient `u` at `x`. -/
def check (s : Setup K n) (u x : Vector K n) : GradientCheck.Result K n :=
  GradientCheck.run s.objective u.toList x ⟨s.settings.checkTol, s.settings.checkStep⟩ x

/-- The iteration comes to a gradient, which fails its check. -/
inductive CheckFails (s : Setup K n) (r : Run K n) (e : Fault K) : Prop
  | intro {step : Step K} {u : Vector K n} (ha : r.Arrives s step u)
      (hc : (check s u (r.moved s step).x).outcome = .error e)

/-- What an iteration leaves that has come to a gradient. -/
theorem approach_of_arrives {step : Step K} {u : Vector K n} (h : r.Arrives s step u) :
    (r.approach s).exit = none ∧ (r.approach s).run = (r.moved s step).differentiated u ∧
      ∃ es, (r.approach s).events = es ++ [.gradient (r.moved s step).x] := by
  unfold approach
  rw [testZero_of_not_lt h.searches.nonzero, Turn.andThen_of_none rfl]
  dsimp only [proceed]
  rw [descend_of_ok h.searches.found, Turn.andThen_of_none rfl]
  dsimp only [proceed]
  rw [testValue_of_not_steady h.unsteady, Turn.andThen_of_none rfl]
  dsimp only [proceed]
  rw [differentiate_of_ok h.gradient]
  exact ⟨rfl, rfl, _, rfl⟩

theorem approach_cases (s : Setup K n) (r : Run K n) :
    (∃ e, (r.approach s).exit = some e) ∨ ∃ step u, r.Arrives s step u := by
  unfold approach
  by_cases hz : abs r.squaredNorm < s.settings.tiny
  · rw [testZero_of_lt hz, Turn.andThen_of_some rfl]
    exact .inl ⟨_, rfl⟩
  rw [testZero_of_not_lt hz, Turn.andThen_of_none rfl]
  dsimp only [proceed]
  cases hs : (r.searched s).found.outcome with
  | error e =>
    rw [descend_of_error hs, Turn.andThen_of_some rfl]
    exact .inl ⟨_, rfl⟩
  | ok step =>
    have hs : r.Searches s step := ⟨hz, hs⟩
    rw [descend_of_ok hs.found, Turn.andThen_of_none rfl]
    dsimp only [proceed]
    by_cases hf : (r.moved s step).Steady s
    · rw [testValue_of_steady hf, Turn.andThen_of_some rfl]
      exact .inl ⟨_, rfl⟩
    rw [testValue_of_not_steady hf, Turn.andThen_of_none rfl]
    dsimp only [proceed]
    cases hg : s.vectorGradient (r.moved s step).x with
    | error e =>
      rw [differentiate_of_error hg]
      exact .inl ⟨_, rfl⟩
    | ok u => exact .inr ⟨step, u, hs, hf, hg⟩

/-- A check that fails ends the run where it has moved to. -/
theorem iterate_of_checkFails (h : { r with nit := k }.CheckFails s e) :
    ∃ step u, { r with nit := k }.Arrives s step u ∧
      (iterate s true k r).exit = some (.failed e) ∧
      (iterate s true k r).run = ({ r with nit := k }.moved s step).differentiated u := by
  obtain ⟨ha, hc⟩ := h
  rename_i step u
  obtain ⟨hn, hrun, -⟩ := approach_of_arrives ha
  have hchecked : ((({ r with nit := k }.moved s step).differentiated u).checked s true) =
      ⟨({ r with nit := k }.moved s step).differentiated u,
        (check s u ({ r with nit := k }.moved s step).x).state.points.map .value,
        some (.failed e)⟩ := by
    unfold check at hc ⊢
    rw [checked, if_pos rfl, verify]
    simp only [differentiated, hc]
  refine ⟨step, u, ha, ?_⟩
  rw [iterate_eq_approach, Turn.andThen_of_none hn, hrun, hchecked, Turn.andThen_of_some rfl]
  exact ⟨rfl, rfl⟩

theorem approach_same (d : Nat) (s : Setup K n) (check : Option Bool) (history : Bool)
    (r : Run K n) :
    (r.approach s).Beside (Shadow.same.coupling d)
      ((r.later d).approach (s.observed check history)) := by
  have hp := kept_shadow .same d s check history true
  have hr : (Shadow.same.coupling d).runs r (r.later d) := runs_shadowed rfl rfl
  have h := Turn.beside_andThen (hp.testZero hr) hp.descend
    (fun _ => precedes_descend s _) (fun _ => precedes_descend (s.observed check history) _)
  have h := Turn.beside_andThen h hp.testValue
    (fun _ => precedes_testValue s _) (fun _ => precedes_testValue (s.observed check history) _)
  have h := Turn.beside_andThen h hp.differentiate (fun _ => precedes_differentiate s _)
    (fun _ => precedes_differentiate (s.observed check history) _)
  unfold approach
  rw [← Turn.andThen_assoc, ← Turn.andThen_assoc, ← Turn.andThen_assoc, ← Turn.andThen_assoc]
  exact h

theorem depart_same (d : Nat) (s : Setup K n) (check : Option Bool) (history : Bool)
    (r : Run K n) :
    (r.depart s).Beside (Shadow.same.coupling d)
      ((r.later d).depart (s.observed check history)) := by
  have hp := kept_shadow .same d s check history true
  have hr : (Shadow.same.coupling d).runs r (r.later d) := runs_shadowed rfl rfl
  exact Turn.beside_andThen (hp.testGradient hr) hp.redirect
    (fun _ => precedes_redirect s _) (fun _ => precedes_redirect (s.observed check history) _)

/-- A check that succeeds adds its values. -/
theorem checked_of_ok (h : (check s r.u r.x).outcome = .ok ()) :
    r.checked s true =
      ⟨r.later (4 * n), Event.probes s.settings.checkStep r.x, none⟩ := by
  have hevals : (check s r.u r.x).state.evals = 4 * n := GradientCheck.evals_of_run h
  have hpoints : (check s r.u r.x).state.points = GradientCheck.probes s.settings.checkStep r.x :=
    GradientCheck.points_of_run h
  unfold check at h hevals hpoints
  rw [checked, if_pos rfl, verify]
  simp only [h, hevals, hpoints]
  rfl

/-- What follows a gradient, with a check that succeeds and without one. -/
theorem checked_same (d : Nat) (s : Setup K n) (choice : Option Bool) (history : Bool)
    (r : Run K n) (h : (check s r.u r.x).outcome = .ok ()) :
    let t := (r.checked s false).andThen (depart s)
    let t' := ((r.later d).checked (s.observed choice history) true).andThen
      (depart (s.observed choice history))
    t'.run = t.run.later (d + 4 * n) ∧ t'.exit = t.exit ∧
      Event.calls t'.events = Event.probes s.settings.checkStep r.x ++ Event.calls t.events := by
  intro t t'
  have ht : t = r.depart s := Turn.andThen_of_none rfl
  have hchecked := checked_of_ok (s := s.observed choice history) (r := r.later d) (by exact h)
  have ht' : t' = { (r.later (d + 4 * n)).depart (s.observed choice history) with
      events := Event.probes s.settings.checkStep r.x ++
        ((r.later (d + 4 * n)).depart (s.observed choice history)).events } := by
    change (((r.later d).checked (s.observed choice history) true).andThen _) = _
    rw [hchecked, Turn.andThen_of_none rfl, later_later]
    rfl
  obtain ⟨hrun, hexit, hcalls⟩ :=
    Turn.alike_of_same (depart_same (d + 4 * n) s choice history r)
  rw [ht, ht']
  refine ⟨hrun, hexit, ?_⟩
  rw [Event.calls_append, Event.calls_probes, hcalls]

/-- An iteration with a check and one without are the same but for the values of the check, unless
the check fails. -/
theorem iterate_verified (s : Setup K n) (choice : Option Bool) (history : Bool) (k d : Nat)
    (r : Run K n) :
    let t := iterate s false k r
    let t' := iterate (s.observed choice history) true k (r.later d)
    (∃ e, { r with nit := k }.CheckFails s e) ∨
      (∃ e, t.exit = some e ∧ (∀ step u, ¬ { r with nit := k }.Arrives s step u) ∧
        t.Verified s.settings.checkStep d [] t') ∨
      ∃ step u, { r with nit := k }.Arrives s step u ∧
        t.Verified s.settings.checkStep d [({ r with nit := k }.moved s step).x] t' := by
  intro t t'
  have ht : t = ({ r with nit := k }.approach s).andThen fun r =>
      (r.checked s false).andThen (depart s) := iterate_eq_approach
  have ht' : t' = (({ r with nit := k }.later d).approach (s.observed choice history)).andThen
      fun r => (r.checked (s.observed choice history) true).andThen
        (depart (s.observed choice history)) := iterate_eq_approach
  have hsame := approach_same d s choice history { r with nit := k }
  rw [ht, ht']
  rcases approach_cases s { r with nit := k } with ⟨e, he⟩ | ⟨step, u, ha⟩
  · have h := Turn.verified_of_same s.settings.checkStep hsame
    refine .inr (.inl ⟨e, ?_, ?_, h.andThen_of_some he⟩)
    · rw [Turn.andThen_of_some he]
      exact he
    · intro step u ha
      rw [(approach_of_arrives ha).1] at he
      cases he
  · cases hc : (check s u ({ r with nit := k }.moved s step).x).outcome with
    | error e => exact .inl ⟨e, ha, hc⟩
    | ok =>
      refine .inr (.inr ⟨step, u, ha, ?_⟩)
      obtain ⟨hn, hrun, es, hes⟩ := approach_of_arrives ha
      obtain ⟨hrun', hexit', hcalls'⟩ := Turn.alike_of_same hsame
      rw [Turn.andThen_of_none hn, Turn.andThen_of_none (hexit'.trans hn), hrun', hrun]
      obtain ⟨hrun'', hexit'', hcalls''⟩ := checked_same d s choice history
        (({ r with nit := k }.moved s step).differentiated u) hc
      refine ⟨?_, hexit'', ?_⟩
      · rw [List.length_singleton, Nat.mul_one]
        exact hrun''
      · dsimp only
        rw [Event.calls_append, Event.calls_append, hcalls', hcalls'', hes, Event.calls_append,
          List.append_assoc, List.append_assoc]
        exact (Event.woven_refl _ _).append (.check _ (Event.woven_refl _ _))

theorem searches_later {choice : Option Bool} {history : Bool} {step : Step K} :
    (r.later d).Searches (s.observed choice history) step ↔ r.Searches s step := by
  constructor
  · rintro ⟨hz, hs⟩
    exact ⟨hz, hs⟩
  · rintro ⟨hz, hs⟩
    exact ⟨hz, hs⟩

/-- Neither choice has a part in what is checked, nor has the number of values. -/
theorem arrives_later {choice : Option Bool} {history : Bool} {step : Step K} {u : Vector K n} :
    (r.later d).Arrives (s.observed choice history) step u ↔ r.Arrives s step u := by
  constructor
  · rintro ⟨hs, hf, hg⟩
    exact ⟨searches_later.mp hs, hf, hg⟩
  · rintro ⟨hs, hf, hg⟩
    exact ⟨searches_later.mpr hs, hf, hg⟩

theorem checkFails_later {choice : Option Bool} {history : Bool} :
    (r.later d).CheckFails (s.observed choice history) e ↔ r.CheckFails s e := by
  constructor
  · rintro ⟨ha, hc⟩
    exact ⟨arrives_later.mp ha, hc⟩
  · rintro ⟨ha, hc⟩
    exact ⟨arrives_later.mpr ha, hc⟩

variable {choice : Option Bool} {history : Bool}

omit [Scalar K] in
/-- The values of `k` checks and of one more. -/
theorem values_succ (n k : Nat) (x : Vector K n) : 4 * n * k + 4 * n * [x].length = 4 * n * (k + 1) := by
  rw [List.length_singleton, Nat.mul_one, Nat.mul_succ]

/-- The run without checks reaches iteration `k`, which comes to a gradient at `x`. -/
def ComesTo (s : Setup K n) (r : Run K n) (k : Nat) (x : Vector K n) : Prop :=
  Live s false r k ∧ ∃ step u, { after s false r k with nit := k }.Arrives s step u ∧
    x = ({ after s false r k with nit := k }.moved s step).x

theorem comesTo_unique {x y : Vector K n} (h : ComesTo s r k x) (h' : ComesTo s r k y) : x = y := by
  obtain ⟨-, step, u, ha, rfl⟩ := h
  obtain ⟨-, step', u', ha', rfl⟩ := h'
  rw [searches_unique ha.searches ha'.searches]

/-- After an iteration that ends the run there is no gradient to come to. -/
theorem le_of_comesTo {x : Vector K n} {exit : Exit K} {j : Nat}
    (he : (iterate s false k (after s false r k)).exit = some exit) (h : ComesTo s r j x) :
    j ≤ k := by
  apply Nat.le_of_not_lt
  intro hkj
  rw [h.1 k hkj] at he
  cases he

/-- As long as the run with checks goes on, so does the one without, and each iteration has made one
check. -/
theorem live_verified (hl : Live (s.observed choice history) true r k) :
    Live s false r k ∧
      after (s.observed choice history) true r k = (after s false r k).later (4 * n * k) := by
  induction k with
  | zero => exact ⟨live_zero, rfl⟩
  | succ k ih =>
    obtain ⟨hl, hn⟩ := live_succ.mp hl
    obtain ⟨hlive, hafter⟩ := ih hl
    rw [hafter] at hn
    rcases iterate_verified s choice history k (4 * n * k) (after s false r k) with
      ⟨e, hc⟩ | ⟨e, he, -, hverified⟩ | ⟨step, u, -, hverified⟩
    · obtain ⟨-, -, -, he, -⟩ := iterate_of_checkFails (k := k)
        (r := (after s false r k).later (4 * n * k)) (checkFails_later.mpr hc)
      rw [hn] at he
      cases he
    · rw [hverified.exit, he] at hn
      cases hn
    · refine ⟨live_succ.mpr ⟨hlive, hverified.exit.symm.trans hn⟩, ?_⟩
      rw [after, hafter, ← values_succ n k ({ after s false r k with nit := k }.moved s step).x]
      exact hverified.run

/-- If no check fails, then the run with checks goes on as long as the one without. -/
theorem live_of_checks
    (hc : ∀ j < k, Live s false r j → ∀ e, ¬ { after s false r j with nit := j }.CheckFails s e)
    (hl : Live s false r k) : Live (s.observed choice history) true r k := by
  induction k with
  | zero => exact live_zero
  | succ k ih =>
    obtain ⟨hl, hn⟩ := live_succ.mp hl
    have hlive := ih (fun j hj => hc j (by omega)) hl
    refine live_succ.mpr ⟨hlive, ?_⟩
    rw [(live_verified hlive).2]
    rcases iterate_verified s choice history k (4 * n * k) (after s false r k) with
      ⟨e, h⟩ | ⟨e, he, -, -⟩ | ⟨step, u, -, hverified⟩
    · exact (hc k (by omega) hl e h).elim
    · rw [hn] at he
      cases he
    · exact hverified.exit.trans hn

/-- If no check fails, then whole loops are the same but for the values of the checks: one is made for
each gradient that an iteration comes to. -/
theorem loop_verified (choice : Option Bool) (history : Bool) {budget : Nat}
    (hc : ∀ j < k + budget, Live s false r j →
      ∀ e, ¬ { after s false r j with nit := j }.CheckFails s e)
    (hl : Live s false r k) :
    ∃ xs, (loop s false (after s false r k) budget k).toTurn.Verified s.settings.checkStep
        (4 * n * k) xs
        (loop (s.observed choice history) true ((after s false r k).later (4 * n * k)) budget
          k).toTurn ∧
      ∀ i x, xs[i]? = some x ↔ i < budget ∧ ComesTo s r (k + i) x := by
  induction budget generalizing k with
  | zero =>
    refine ⟨[], ⟨rfl, rfl, Event.woven_refl _ _⟩, ?_⟩
    intro i x
    exact iff_of_false (by simp) fun h => Nat.not_lt_zero i h.1
  | succ budget ih =>
    rw [loop_succ, loop_succ]
    rcases iterate_verified s choice history k (4 * n * k) (after s false r k) with
      ⟨e, h⟩ | ⟨e, he, hnone, hverified⟩ | ⟨step, u, ha, hverified⟩
    · exact (hc k (by omega) hl e h).elim
    · refine ⟨[], hverified.andThen_of_some he, ?_⟩
      intro i x
      refine iff_of_false (by simp) ?_
      rintro ⟨-, h⟩
      obtain rfl : i = 0 := by
        have hle := le_of_comesTo he h
        omega
      obtain ⟨-, step, u, ha, -⟩ := h
      exact hnone step u ha
    · have hfirst : ComesTo s r k ({ after s false r k with nit := k }.moved s step).x :=
        ⟨hl, step, u, ha, rfl⟩
      have hzero : ∀ x, some ({ after s false r k with nit := k }.moved s step).x = some x ↔
          0 < budget + 1 ∧ ComesTo s r (k + 0) x := by
        intro x
        constructor
        · rintro ⟨⟩
          exact ⟨Nat.succ_pos _, hfirst⟩
        · rintro ⟨-, h⟩
          rw [comesTo_unique hfirst h]
      cases he : (iterate s false k (after s false r k)).exit with
      | some e =>
        refine ⟨_, hverified.andThen_of_some he, ?_⟩
        intro i x
        cases i with
        | zero => exact hzero x
        | succ i =>
          refine iff_of_false (by simp) ?_
          rintro ⟨-, h⟩
          have hle := le_of_comesTo he h
          omega
      | none =>
        -- the later points are counted from the next iteration on
        obtain ⟨ys, hys, hindex⟩ := ih (k := k + 1) (fun j hj => hc j (by omega))
          (live_succ.mpr ⟨hl, he⟩)
        refine ⟨_ :: ys, hverified.andThen he ?_, ?_⟩
        · rw [hverified.run, values_succ]
          exact hys
        · intro i x
          cases i with
          | zero => exact hzero x
          | succ i =>
            rw [List.getElem?_cons_succ, hindex, Nat.add_right_comm k 1 i, Nat.succ_lt_succ_iff]
            rfl

end Run
end Descent
