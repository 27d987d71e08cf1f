import Descent.Proofs.Run.Trajectory

/-! Where a report of a restart comes from: from a search, or from a sum of directions that does
not descend. -/
namespace Descent
variable {K : Type} {n : Nat}

theorem Turn.mem_andThen {t : Turn K n} {f : Run K n → Turn K n} {e : Event K n}
    (h : e ∈ (t.andThen f).events) : e ∈ t.events ∨ (t.exit = none ∧ e ∈ (f t.run).events) := by
  cases hx : t.exit with
  | some x =>
    rw [andThen_of_some hx] at h
    exact .inl h
  | none =>
    rw [andThen_of_none hx] at h
    rcases List.mem_append.mp h with h | h
    · exact .inl h
    · exact .inr ⟨rfl, h⟩

variable [Scalar K]

namespace Run
variable {s : Setup K n} {v : Bool} {r : Run K n} {k m : Nat}

/-- The sum of directions does not descend. -/
structure Restarts (s : Setup K n) (v : Bool) (r r' : Run K n) (gamma : K) : Prop where
  passes : r.Passes s v r'
  weight : quotient (r'.weight s.settings.method) r'.squaredNorm = .ok gamma
  ascends : dot (r'.combined gamma) (-r'.u) ≤ 0.0

theorem restarted_of_descend (h : .notice (.restarted m) ∈ (r.descend s).events) :
    .notice (.restarted m) ∈ (r.searched s).found.events := by
  cases hs : (r.searched s).found.outcome with
  | error e =>
    rw [descend_of_error hs] at h
    exact h
  | ok step =>
    rw [descend_of_ok hs] at h
    exact h

theorem not_restarted_of_testValue : .notice (.restarted m) ∉ (r.testValue s).events := by
  unfold testValue
  split <;> simp [converge, proceed]

theorem not_restarted_of_differentiate : .notice (.restarted m) ∉ (r.differentiate s).events := by
  unfold differentiate
  dsimp only
  split <;> simp [proceed]

theorem not_restarted_of_checked : .notice (.restarted m) ∉ (r.checked s v).events := by
  unfold checked
  split
  · unfold verify
    dsimp only
    split <;> simp [proceed]
  · simp [proceed]

theorem not_restarted_of_testGradient : .notice (.restarted m) ∉ (r.testGradient s).events := by
  unfold testGradient
  split
  · simp
  · intro h
    rcases Turn.mem_andThen h with h | ⟨-, h⟩
    · simp [proceed] at h
    · split at h <;> simp [converge, proceed] at h

theorem restarted_of_tested (h : .notice (.restarted m) ∈ (r.tested s v).events) :
    ¬ abs r.squaredNorm < s.settings.tiny ∧
      .notice (.restarted m) ∈ (r.searched s).found.events := by
  unfold tested at h
  by_cases hz : abs r.squaredNorm < s.settings.tiny
  · rw [testZero_of_lt hz, Turn.andThen_of_some rfl] at h
    simp [converge] at h
  rw [testZero_of_not_lt hz] at h
  rcases Turn.mem_andThen h with h | ⟨-, h⟩
  · simp [proceed] at h
  rcases Turn.mem_andThen h with h | ⟨-, h⟩
  · exact ⟨hz, restarted_of_descend h⟩
  rcases Turn.mem_andThen h with h | ⟨-, h⟩
  · exact (not_restarted_of_testValue h).elim
  rcases Turn.mem_andThen h with h | ⟨-, h⟩
  · exact (not_restarted_of_differentiate h).elim
  rcases Turn.mem_andThen h with h | ⟨-, h⟩
  · exact (not_restarted_of_checked h).elim
  · exact (not_restarted_of_testGradient h).elim

theorem restarted_of_iterate (h : .notice (.restarted m) ∈ (iterate s v k r).events) :
    (¬ abs r.squaredNorm < s.settings.tiny ∧
      .notice (.restarted m) ∈ ({ r with nit := k }.searched s).found.events) ∨
      ∃ r' gamma, { r with nit := k }.Restarts s v r' gamma := by
  rw [iterate_eq] at h
  rcases Turn.mem_andThen h with h | ⟨hn, h⟩
  · exact .inl (restarted_of_tested (r := { r with nit := k }) h)
  right
  rcases tested_cases s v { r with nit := k } with ⟨e, he, -⟩ | ⟨-, hp⟩
  · rw [hn] at he
    cases he
  generalize ({ r with nit := k }.tested s v).run = r' at h hp
  cases hw : quotient (r'.weight s.settings.method) r'.squaredNorm with
  | error e =>
    rw [redirect_of_error hw] at h
    cases h
  | ok gamma =>
    rw [redirect_of_ok hw] at h
    dsimp only at h
    split at h
    · exact ⟨r', gamma, hp, hw, ‹_›⟩
    · cases h

/-- What a loop reports, one of its iterations reports. -/
theorem restarted_of_loop {budget : Nat} (hl : Live s v r k)
    (h : .notice (.restarted m) ∈ (loop s v (after s v r k) budget k).events) :
    ∃ j < k + budget, Live s v r j ∧
      .notice (.restarted m) ∈ (iterate s v j (after s v r j)).events := by
  induction budget generalizing k with
  | zero => simp [loop] at h
  | succ budget ih =>
    rw [loop] at h
    cases he : (iterate s v k (after s v r k)).exit with
    | some e =>
      rw [he] at h
      exact ⟨k, by omega, hl, h⟩
    | none =>
      rw [he] at h
      rcases List.mem_append.mp h with h | h
      · exact ⟨k, by omega, hl, h⟩
      · obtain ⟨j, hj, hlive, hmem⟩ := ih (live_succ.mpr ⟨hl, he⟩) h
        exact ⟨j, by omega, hlive, hmem⟩

end Run

/-- A restart is reported by a search, or it takes place in an iteration that the run reaches. -/
theorem Optimizer.restarted_cases {o : Optimizer K n} {debug : Bool} {x₀ : Vector K n}
    {r₀ : Run K n} {m : Nat} (hb : o.Begins x₀ r₀)
    (h : .notice (.restarted m) ∈ (o.minimizeFrom debug x₀).events) :
    ∃ k r, o.Reaches debug x₀ k r ∧ ((¬ abs r.squaredNorm < o.setup.settings.tiny ∧
      .notice (.restarted m) ∈ (r.searched o.setup).found.events) ∨
      ∃ r' gamma, r.Restarts o.setup (o.setup.settings.verifies debug) r' gamma) := by
  obtain ⟨-, -, -, hevents⟩ := minimizeFrom_of_begins debug hb
  rw [hevents] at h
  simp only [List.mem_cons, reduceCtorEq, Event.notice.injEq, false_or] at h
  obtain ⟨j, hj, hl, hmem⟩ := Run.restarted_of_loop (k := 0) Run.live_zero h
  rw [Nat.zero_add] at hj
  exact ⟨j, _, ⟨r₀, hb, hj, hl, rfl⟩, Run.restarted_of_iterate hmem⟩

end Descent
