import Descent.Proofs.Search.Zoom
import Descent.Search.Bracket

/-! What one expansion of a bracket does. -/
namespace Descent.Bracket
variable {K : Type} [Scalar K] {l : Line K} {s s' : Bracket K} {growLimit : K} {count : Nat}
  {es : List (Probe K)}

/-- The three values are those of the line. -/
structure LiesOn (l : Line K) (s : Bracket K) : Prop where
  a : l.value s.a = .ok s.fa
  b : l.value s.b = .ok s.fb
  c : l.value s.c = .ok s.fc

/-- An expansion tries the vertex if it is inside, the vertex if it is not too far outside, the
farthest point, or one golden step. -/
inductive Moves (l : Line K) (growLimit : K) (s : Bracket K) :
    Verdict K → Nat → List (Probe K) → Prop
  | insideLower {u fu : K} (hu : s.vertex = .ok u) (hi : (s.b - u) * (u - s.c) > 0.0)
      (hv : l.value u = .ok fu) (hl : fu < s.fc) :
      Moves l growLimit s (.found ⟨s.b, u, s.c, s.fb, fu, s.fc⟩) 1 [.value u]
  | insideHigher {u fu : K} (hu : s.vertex = .ok u) (hi : (s.b - u) * (u - s.c) > 0.0)
      (hv : l.value u = .ok fu) (hl : ¬ fu < s.fc) (hh : fu > s.fb) :
      Moves l growLimit s (.found ⟨s.a, s.b, u, s.fa, s.fb, fu⟩) 1 [.value u]
  | insideUseless {u fu fw : K} (hu : s.vertex = .ok u) (hi : (s.b - u) * (u - s.c) > 0.0)
      (hv : l.value u = .ok fu) (hl : ¬ fu < s.fc) (hh : ¬ fu > s.fb)
      (hw : l.value (s.c + golden * (s.c - s.b)) = .ok fw) :
      Moves l growLimit s (.next (s.shift (s.c + golden * (s.c - s.b)) fw)) 2
        [.value u, .value (s.c + golden * (s.c - s.b))]
  | outsideLower {u fu fw : K} (hu : s.vertex = .ok u) (hi : ¬ (s.b - u) * (u - s.c) > 0.0)
      (ho : (s.c - u) * (u - (s.b + growLimit * (s.c - s.b))) > 0.0)
      (hv : l.value u = .ok fu) (hl : fu < s.fc)
      (hw : l.value (u + golden * (u - s.c)) = .ok fw) :
      Moves l growLimit s (.next ((s.shift u fu).shift (u + golden * (u - s.c)) fw)) 2
        [.value u, .value (u + golden * (u - s.c))]
  | outsideHigher {u fu : K} (hu : s.vertex = .ok u) (hi : ¬ (s.b - u) * (u - s.c) > 0.0)
      (ho : (s.c - u) * (u - (s.b + growLimit * (s.c - s.b))) > 0.0)
      (hv : l.value u = .ok fu) (hl : ¬ fu < s.fc) :
      Moves l growLimit s (.next (s.shift u fu)) 1 [.value u]
  | farthest {u fu : K} (hu : s.vertex = .ok u) (hi : ¬ (s.b - u) * (u - s.c) > 0.0)
      (ho : ¬ (s.c - u) * (u - (s.b + growLimit * (s.c - s.b))) > 0.0)
      (hf : (u - (s.b + growLimit * (s.c - s.b))) *
        (s.b + growLimit * (s.c - s.b) - s.c) ≥ 0.0)
      (hv : l.value (s.b + growLimit * (s.c - s.b)) = .ok fu) :
      Moves l growLimit s (.next (s.shift (s.b + growLimit * (s.c - s.b)) fu)) 1
        [.value (s.b + growLimit * (s.c - s.b))]
  | back {u fw : K} (hu : s.vertex = .ok u) (hi : ¬ (s.b - u) * (u - s.c) > 0.0)
      (ho : ¬ (s.c - u) * (u - (s.b + growLimit * (s.c - s.b))) > 0.0)
      (hf : ¬ (u - (s.b + growLimit * (s.c - s.b))) *
        (s.b + growLimit * (s.c - s.b) - s.c) ≥ 0.0)
      (hw : l.value (s.c + golden * (s.c - s.b)) = .ok fw) :
      Moves l growLimit s (.next (s.shift (s.c + golden * (s.c - s.b)) fw)) 1
        [.value (s.c + golden * (s.c - s.b))]

theorem moves_of_expand {w : Verdict K} (h : expand l growLimit s = ⟨.ok (w, count), es⟩) :
    Moves l growLimit s w count es := by
  rw [expand, Traced.lift_bind_eq_ok] at h
  obtain ⟨u, hu, h⟩ := h
  dsimp only at h
  split at h
  · rename_i hi
    rw [Line.valueAt_bind_eq_ok] at h
    obtain ⟨fu, es', hv, h, rfl⟩ := h
    split at h
    · rename_i hl
      obtain ⟨⟨⟩, rfl⟩ := Traced.pure_eq_ok.mp h
      exact .insideLower hu hi hv hl
    · rename_i hl
      split at h
      · rename_i hh
        obtain ⟨⟨⟩, rfl⟩ := Traced.pure_eq_ok.mp h
        exact .insideHigher hu hi hv hl hh
      · rename_i hh
        rw [Line.valueAt_bind_eq_ok] at h
        obtain ⟨fw, es', hw, h, rfl⟩ := h
        obtain ⟨⟨⟩, rfl⟩ := Traced.pure_eq_ok.mp h
        exact .insideUseless hu hi hv hl hh hw
  · rename_i hi
    split at h
    · rename_i ho
      rw [Line.valueAt_bind_eq_ok] at h
      obtain ⟨fu, es', hv, h, rfl⟩ := h
      split at h
      · rename_i hl
        rw [Line.valueAt_bind_eq_ok] at h
        obtain ⟨fw, es', hw, h, rfl⟩ := h
        obtain ⟨⟨⟩, rfl⟩ := Traced.pure_eq_ok.mp h
        exact .outsideLower hu hi ho hv hl hw
      · rename_i hl
        obtain ⟨⟨⟩, rfl⟩ := Traced.pure_eq_ok.mp h
        exact .outsideHigher hu hi ho hv hl
    · rename_i ho
      split at h
      · rename_i hf
        rw [Line.valueAt_bind_eq_ok] at h
        obtain ⟨fu, es', hv, h, rfl⟩ := h
        obtain ⟨⟨⟩, rfl⟩ := Traced.pure_eq_ok.mp h
        exact .farthest hu hi ho hf hv
      · rename_i hf
        rw [Line.valueAt_bind_eq_ok] at h
        obtain ⟨fw, es', hw, h, rfl⟩ := h
        obtain ⟨⟨⟩, rfl⟩ := Traced.pure_eq_ok.mp h
        exact .back hu hi ho hf hw

/-- What every expansion keeps holds of the bracket that is returned. -/
theorem run_keeps {I P : Bracket K → Prop} {o : Options K}
    (hd : ∀ {s}, I s → s.fb ≤ s.fc → P s)
    (hf : ∀ {s s' count es}, I s → ¬ s.fb ≤ s.fc →
      Moves l o.growLimit s (.found s') count es → P s')
    (hn : ∀ {s s' count es}, I s → ¬ s.fb ≤ s.fc →
      Moves l o.growLimit s (.next s') count es → I s')
    {budget nfev : Nat} (hs : I s) (h : run l o budget s nfev = ⟨.ok (s', count), es⟩) : P s' := by
  induction budget generalizing s nfev es with
  | zero => cases h
  | succ budget ih =>
    rw [run] at h
    split at h
    · rename_i hc
      obtain ⟨⟨⟩, -⟩ := Traced.pure_eq_ok.mp h
      exact hd hs hc
    · rename_i hc
      rw [Traced.bind_eq_ok] at h
      obtain ⟨⟨w, k⟩, es₁, es₂, hw, h, -⟩ := h
      have hw := moves_of_expand hw
      cases w with
      | found t =>
        obtain ⟨⟨⟩, -⟩ := Traced.pure_eq_ok.mp h
        exact hf hs hc hw
      | next t => exact ih (hn hs hc hw) h

theorem liesOn_next (hs : s.LiesOn l) (h : Moves l growLimit s (.next s') count es) :
    s'.LiesOn l := by
  cases h with
  | insideUseless hu hi hv hl hh hw => exact ⟨hs.b, hs.c, hw⟩
  | outsideLower hu hi ho hv hl hw => exact ⟨hs.c, hv, hw⟩
  | outsideHigher hu hi ho hv hl => exact ⟨hs.b, hs.c, hv⟩
  | farthest hu hi ho hf hv => exact ⟨hs.b, hs.c, hv⟩
  | back hu hi ho hf hw => exact ⟨hs.b, hs.c, hw⟩

theorem liesOn_found (hs : s.LiesOn l) (h : Moves l growLimit s (.found s') count es) :
    s'.LiesOn l := by
  cases h with
  | insideLower hu hi hv hl => exact ⟨hs.b, hv, hs.c⟩
  | insideHigher hu hi hv hl hh => exact ⟨hs.a, hs.b, hv⟩

/-- The first of the three points is the worse of the two given. -/
theorem initial_eq_ok {a b : K} (h : initial l a b = ⟨.ok s, es⟩) :
    s.LiesOn l ∧ ∃ fa fb, l.value a = .ok fa ∧ l.value b = .ok fb ∧
      s.c = s.b + golden * (s.b - s.a) ∧
      ((fb > fa ∧ s.a = b ∧ s.b = a ∧ s.fa = fb ∧ s.fb = fa) ∨
        (¬ fb > fa ∧ s.a = a ∧ s.b = b ∧ s.fa = fa ∧ s.fb = fb)) := by
  rw [initial, Line.valueAt_bind_eq_ok] at h
  obtain ⟨fa, es', ha, h, rfl⟩ := h
  rw [Line.valueAt_bind_eq_ok] at h
  obtain ⟨fb, es', hb, h, rfl⟩ := h
  by_cases hc : fb > fa
  · rw [if_pos hc] at h
    dsimp only at h
    rw [Line.valueAt_bind_eq_ok] at h
    obtain ⟨fc, es', hv, h, rfl⟩ := h
    obtain ⟨rfl, rfl⟩ := Traced.pure_eq_ok.mp h
    exact ⟨⟨hb, ha, hv⟩, fa, fb, ha, hb, rfl, .inl ⟨hc, rfl, rfl, rfl, rfl⟩⟩
  · rw [if_neg hc] at h
    dsimp only at h
    rw [Line.valueAt_bind_eq_ok] at h
    obtain ⟨fc, es', hv, h, rfl⟩ := h
    obtain ⟨rfl, rfl⟩ := Traced.pure_eq_ok.mp h
    exact ⟨⟨ha, hb, hv⟩, fa, fb, ha, hb, rfl, .inr ⟨hc, rfl, rfl, rfl, rfl⟩⟩

theorem events_initial {a b : K} (h : initial l a b = ⟨.ok s, es⟩) :
    es = [.value a, .value b, .value s.c] := by
  rw [initial, Line.valueAt_bind_eq_ok] at h
  obtain ⟨fa, es', -, h, rfl⟩ := h
  rw [Line.valueAt_bind_eq_ok] at h
  obtain ⟨fb, es', -, h, rfl⟩ := h
  dsimp only at h
  rw [Line.valueAt_bind_eq_ok] at h
  obtain ⟨fc, es', -, h, rfl⟩ := h
  obtain ⟨rfl, rfl⟩ := Traced.pure_eq_ok.mp h
  rfl

theorem initial_of_search {a b : K} {o : Options K}
    (h : search l a b o = ⟨.ok (s, count), es⟩) :
    ∃ s₀ es₁ es₂, initial l a b = ⟨.ok s₀, es₁⟩ ∧
      run l o o.maxIter.toNat s₀ 3 = ⟨.ok (s, count), es₂⟩ ∧ es = es₁ ++ es₂ := by
  rw [search, Traced.bind_eq_ok] at h
  exact h

theorem liesOn_search {a b : K} {o : Options K} (h : search l a b o = ⟨.ok (s, count), es⟩) :
    s.LiesOn l := by
  obtain ⟨s₀, es₁, es₂, hi, hr, -⟩ := initial_of_search h
  exact run_keeps (fun hs _ => hs) (fun hs _ => liesOn_found hs) (fun hs _ => liesOn_next hs)
    (initial_eq_ok hi).1 hr

end Descent.Bracket
