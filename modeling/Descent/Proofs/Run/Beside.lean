import Descent.Proofs.Run.Progress

/-! Two runs side by side. As long as neither ends they make the same calls and stay related; one of
them may stop before the other does. -/
namespace Descent
variable {K : Type} {n : Nat}

namespace Event

def isCall : Event K n → Bool
  | value _ => true
  | gradient _ => true
  | notice _ => false

/-- The calls of the functions, in order. -/
def calls (es : List (Event K n)) : List (Event K n) := es.filter isCall

/-- A run begins with one value and one gradient. -/
theorem calls_start (x : Vector K n) (m : Notice K) (es : List (Event K n)) :
    calls (.value x :: .gradient x :: .notice m :: es) = [.value x, .gradient x] ++ calls es :=
  rfl

theorem calls_append (es es' : List (Event K n)) : calls (es ++ es') = calls es ++ calls es' :=
  List.filter_append es es'

end Event

/-- How two runs belong together: while they go on and where both end, and the ways in which the
first or the second may stop alone. -/
structure Coupling (K : Type) (n : Nat) where
  runs : Run K n → Run K n → Prop
  exits : Exit K → Exit K → Prop
  first : Exit K → Prop
  second : Exit K → Prop

/-- Two parts of runs end alike, or one of them stops before the other does. -/
inductive Turn.Beside (p : Coupling K n) (t t' : Turn K n) : Prop
  | alike (runs : p.runs t.run t'.run) (exits : Option.Rel p.exits t.exit t'.exit)
      (calls : Event.calls t.events = Event.calls t'.events)
  | shorter {e : Exit K} {r : Run K n} (exit : t.exit = some e) (stops : p.first e)
      (runs : p.runs t.run r) (precedes : r.Precedes t'.run)
      (calls : Event.calls t.events <+: Event.calls t'.events)
  | longer {e : Exit K} {r : Run K n} (exit : t'.exit = some e) (stops : p.second e)
      (runs : p.runs r t'.run) (precedes : r.Precedes t.run)
      (calls : Event.calls t'.events <+: Event.calls t.events)

namespace Turn
variable {p : Coupling K n} {t t' : Turn K n} {f f' : Run K n → Turn K n}

theorem calls_andThen (t : Turn K n) (f : Run K n → Turn K n) :
    Event.calls t.events <+: Event.calls (t.andThen f).events := by
  cases h : t.exit with
  | some e =>
    have heq : t.andThen f = t := andThen_of_some h
    exact heq.symm ▸ List.prefix_rfl
  | none =>
    rw [andThen_of_none h]
    dsimp only
    rw [Event.calls_append]
    exact List.prefix_append _ _

/-- The calls of one part are the first calls of the other. -/
theorem calls_of_beside (h : t.Beside p t') :
    Event.calls t.events <+: Event.calls t'.events ∨
      Event.calls t'.events <+: Event.calls t.events := by
  cases h with
  | alike runs exits calls => exact .inl (calls ▸ List.prefix_rfl)
  | shorter exit stops runs precedes calls => exact .inl calls
  | longer exit stops runs precedes calls => exact .inr calls

theorem beside_andThen (h : t.Beside p t')
    (hf : p.runs t.run t'.run → (f t.run).Beside p (f' t'.run))
    (hp : t.exit = none → t.run.Precedes (f t.run).run)
    (hp' : t'.exit = none → t'.run.Precedes (f' t'.run).run) :
    (t.andThen f).Beside p (t'.andThen f') := by
  cases h with
  | alike runs exits calls =>
    generalize he : t.exit = e at exits
    generalize he' : t'.exit = e' at exits
    cases exits with
    | some hx =>
      rw [andThen_of_some he, andThen_of_some he']
      exact .alike runs (he ▸ he' ▸ .some hx) calls
    | none =>
      rw [andThen_of_none he, andThen_of_none he']
      cases hf runs with
      | alike runs' exits' calls' =>
        refine .alike runs' exits' ?_
        rw [Event.calls_append, Event.calls_append, calls, calls']
      | shorter exit stops runs' precedes calls' =>
        refine .shorter exit stops runs' precedes ?_
        rw [Event.calls_append, Event.calls_append, calls]
        exact (List.prefix_append_right_inj _).mpr calls'
      | longer exit stops runs' precedes calls' =>
        refine .longer exit stops runs' precedes ?_
        rw [Event.calls_append, Event.calls_append, calls]
        exact (List.prefix_append_right_inj _).mpr calls'
  | shorter exit stops runs precedes calls =>
    rw [andThen_of_some exit]
    exact .shorter exit stops runs (precedes.trans (Run.precedes_andThen (.refl _) hp'))
      (calls.trans (calls_andThen t' f'))
  | longer exit stops runs precedes calls =>
    rw [andThen_of_some exit]
    exact .longer exit stops runs (precedes.trans (Run.precedes_andThen (.refl _) hp))
      (calls.trans (calls_andThen t f))

end Turn

variable [Scalar K]

/-- Every part of an iteration keeps two runs side by side. -/
structure Coupling.Kept (p : Coupling K n) (s s' : Setup K n) (v : Bool) : Prop where
  nit : ∀ {r r'} (k : Nat), p.runs r r' → p.runs { r with nit := k } { r' with nit := k }
  testZero : ∀ {r r'}, p.runs r r' → (r.testZero s).Beside p (r'.testZero s')
  descend : ∀ {r r'}, p.runs r r' → (r.descend s).Beside p (r'.descend s')
  testValue : ∀ {r r'}, p.runs r r' → (r.testValue s).Beside p (r'.testValue s')
  differentiate : ∀ {r r'}, p.runs r r' → (r.differentiate s).Beside p (r'.differentiate s')
  checked : ∀ {r r'}, p.runs r r' → (r.checked s v).Beside p (r'.checked s' v)
  testGradient : ∀ {r r'}, p.runs r r' → (r.testGradient s).Beside p (r'.testGradient s')
  redirect : ∀ {r r'}, p.runs r r' → (r.redirect s).Beside p (r'.redirect s')

namespace Run
variable {p : Coupling K n} {s s' : Setup K n} {v : Bool} {r r' : Run K n}
  (hp : p.Kept s s' v) (hr : p.runs r r')
include hp hr

theorem beside_iterate (k : Nat) : (iterate s v k r).Beside p (iterate s' v k r') := by
  have h := Turn.beside_andThen (hp.testZero (hp.nit k hr)) hp.descend
    (fun _ => precedes_descend s _) (fun _ => precedes_descend s' _)
  have h := Turn.beside_andThen h hp.testValue
    (fun _ => precedes_testValue s _) (fun _ => precedes_testValue s' _)
  have h := Turn.beside_andThen h hp.differentiate
    (fun _ => precedes_differentiate s _) (fun _ => precedes_differentiate s' _)
  have h := Turn.beside_andThen h hp.checked
    (fun _ => precedes_checked s v _) (fun _ => precedes_checked s' v _)
  have h := Turn.beside_andThen h hp.testGradient
    (fun _ => precedes_testGradient s _) (fun _ => precedes_testGradient s' _)
  have h := Turn.beside_andThen h hp.redirect
    (fun _ => precedes_redirect s _) (fun _ => precedes_redirect s' _)
  unfold iterate
  rw [checked_eq, checked_eq]
  exact h

/-- Two loops are side by side if they are so where the budget of the first is exhausted. -/
theorem beside_loop {budget extra k : Nat} (hk : k + budget ≤ s.settings.maxIter)
    (hk' : k + (budget + extra) ≤ s'.settings.maxIter)
    (h0 : ∀ {r r'}, p.runs r r' → (loop s v r 0 (k + budget)).toTurn.Beside p
      (loop s' v r' extra (k + budget)).toTurn) :
    (loop s v r budget k).toTurn.Beside p (loop s' v r' (budget + extra) k).toTurn := by
  induction budget generalizing r r' k with
  | zero =>
    rw [Nat.zero_add]
    exact h0 hr
  | succ budget ih =>
    have hs : k + (budget + 1) = k + 1 + budget := by omega
    have hstep : ∀ {s : Setup K n} {b : Nat} (r : Run K n), k + 1 + b ≤ s.settings.maxIter →
        (iterate s v k r).run.Precedes (loop s v (iterate s v k r).run b (k + 1)).run := by
      intro s b r hb
      apply Precedes.trans (precedes_nit _ _) (precedes_loop s v _ hb)
      rw [nit_iterate]
      exact Nat.le_succ k
    rw [hs] at h0
    rw [Nat.add_right_comm, loop_succ, loop_succ]
    apply Turn.beside_andThen (beside_iterate hp hr k)
    · intro hr
      exact ih hr (by omega) (by omega) h0
    · intro _
      exact hstep r (by omega)
    · intro _
      exact hstep r' (by omega)

/-- As long as both go on, two runs stay related. -/
theorem runs_after {k : Nat} (hl : Live s v r k) (hl' : Live s' v r' k) :
    p.runs (after s v r k) (after s' v r' k) := by
  induction k with
  | zero => exact hr
  | succ k ih =>
    obtain ⟨hl, he⟩ := live_succ.mp hl
    obtain ⟨hl', he'⟩ := live_succ.mp hl'
    cases beside_iterate hp (ih hl hl') k with
    | alike runs exits calls => exact runs
    | shorter exit stops runs precedes calls =>
      rw [he] at exit
      cases exit
    | longer exit stops runs precedes calls =>
      rw [he'] at exit
      cases exit

/-- If the second run cannot stop alone, it goes on as long as the first does. -/
theorem live_beside {k : Nat} (hn : ∀ e, ¬ p.second e) (hl : Live s v r k) : Live s' v r' k := by
  induction k with
  | zero => exact live_zero
  | succ k ih =>
    obtain ⟨hl, he⟩ := live_succ.mp hl
    have hl' := ih hl
    refine live_succ.mpr ⟨hl', ?_⟩
    cases beside_iterate hp (runs_after hp hr hl hl') k with
    | alike runs exits calls =>
      rw [he] at exits
      cases h : (iterate s' v k (after s' v r' k)).exit with
      | none => rfl
      | some e =>
        rw [h] at exits
        cases exits
    | shorter exit stops runs precedes calls =>
      rw [he] at exit
      cases exit
    | longer exit stops runs precedes calls => exact (hn _ stops).elim

end Run
end Descent
