import Descent.ConjugateGradient.Optimizer
import Descent.Proofs.Run.Iteration

/-! The run after each number of iterations, and how whole runs end. -/
namespace Descent
variable {K : Type} [Scalar K] {n : Nat}

/-- A run that has ended, as a part of a run. -/
def Finish.toTurn (f : Finish K n) : Turn K n := ⟨f.run, f.events, some f.exit⟩

namespace Run
variable (s : Setup K n) (v : Bool) (r : Run K n)

/-- The run after so many iterations, as if none of them ended it. -/
def after : Nat → Run K n
  | 0 => r
  | k + 1 => (iterate s v k (after k)).run

/-- So many iterations do not end the run. -/
def Live (k : Nat) : Prop := ∀ j < k, (iterate s v j (after s v r j)).exit = none

variable {s v r} {k : Nat}

/-- An iteration numbers the run anew. -/
theorem iterate_nit {j : Nat} : iterate s v k { r with nit := j } = iterate s v k r := rfl

theorem live_zero : Live s v r 0 := by
  intro j hj
  omega

theorem Live.mono {j : Nat} (h : Live s v r k) (hj : j ≤ k) : Live s v r j := by
  intro i hi
  exact h i (Nat.lt_of_lt_of_le hi hj)

theorem live_succ : Live s v r (k + 1) ↔
    Live s v r k ∧ (iterate s v k (after s v r k)).exit = none := by
  constructor
  · intro h
    exact ⟨h.mono (Nat.le_succ k), h k (Nat.lt_succ_self k)⟩
  · rintro ⟨h, hk⟩ j hj
    rcases Nat.lt_succ_iff_lt_or_eq.mp hj with hj | rfl
    · exact h j hj
    · exact hk

theorem completes_of_live (h : Live s v r (k + 1)) :
    { after s v r k with nit := k }.Completes s v (after s v r (k + 1)) := by
  rcases iterate_cases s v k (after s v r k) with ⟨e, he, -⟩ | ⟨-, hc⟩
  · rw [(live_succ.mp h).2] at he
    cases he
  · exact hc

/-- What every completed iteration keeps holds as long as the run goes on. -/
theorem live_keeps {I : Nat → Run K n → Prop} (h0 : I 0 r)
    (hi : ∀ {k r r'}, I k r → { r with nit := k }.Completes s v r' → I (k + 1) r')
    (h : Live s v r k) : I k (after s v r k) := by
  induction k with
  | zero => exact h0
  | succ k ih => exact hi (ih (h.mono (Nat.le_succ k))) (completes_of_live h)

/-- A loop is an iteration, and the rest of the loop unless that ends the run. -/
theorem loop_succ (budget : Nat) : (loop s v r (budget + 1) k).toTurn =
    (iterate s v k r).andThen fun r => (loop s v r budget (k + 1)).toTurn := by
  rw [loop]
  cases h : (iterate s v k r).exit with
  | some e =>
    rw [Turn.andThen_of_some h]
    simp only [Finish.toTurn]
    rw [← h]
  | none =>
    rw [Turn.andThen_of_none h]
    rfl

/-- A loop ends as one of its iterations does, or its budget is exhausted. -/
theorem loop_ends (budget : Nat) (h : Live s v r k) :
    let f := loop s v (after s v r k) budget k
    (∃ j, k ≤ j ∧ j < k + budget ∧ Live s v r j ∧
        (iterate s v j (after s v r j)).exit = some f.exit ∧
        (iterate s v j (after s v r j)).run = f.run) ∨
      (Live s v r (k + budget) ∧
        f.run = { after s v r (k + budget) with nit := s.settings.maxIter } ∧
        f.exit = .exhausted (after s v r (k + budget)).fmin) := by
  induction budget generalizing k with
  | zero => exact .inr ⟨h, rfl, rfl⟩
  | succ budget ih =>
    rw [loop]
    cases he : (iterate s v k (after s v r k)).exit with
    | some e => exact .inl ⟨k, Nat.le_refl k, by omega, h, he, rfl⟩
    | none =>
      have hs : k + 1 + budget = k + (budget + 1) := by omega
      rcases ih (live_succ.mpr ⟨h, he⟩) with ⟨j, hkj, hj, hl, hx⟩ | hx
      · exact .inl ⟨j, by omega, by omega, hl, hx⟩
      · rw [hs] at hx
        exact .inr hx

end Run

namespace Optimizer
variable (o : Optimizer K n) (debug : Bool) (x₀ : Vector K n)

/-- The first value and the first gradient are accepted, and the run begins. -/
inductive Begins : Run K n → Prop
  | intro {fx : K} {gradient : Vector K n} (hf : o.setup.objective x₀ = .ok fx)
      (hg : o.setup.vectorGradient x₀ = .ok gradient) : Begins (o.begin x₀ fx gradient)

/-- The first value or the first gradient fails, after so many values. -/
inductive Abandons : Nat → List (Event K n) → Fault K → Prop
  | objective {e : Fault K} (hf : o.setup.objective x₀ = .error e) : Abandons 0 [.value x₀] e
  | gradient {fx : K} {e : Fault K} (hf : o.setup.objective x₀ = .ok fx)
      (hg : o.setup.vectorGradient x₀ = .error e) : Abandons 1 [.value x₀, .gradient x₀] e

/-- The run from `x₀` comes to iteration `k`, which starts from `r`. -/
def Reaches (k : Nat) (r : Run K n) : Prop :=
  ∃ r₀, o.Begins x₀ r₀ ∧ k < o.setup.settings.maxIter ∧
    Run.Live o.setup (o.setup.settings.verifies debug) r₀ k ∧
    r = { Run.after o.setup (o.setup.settings.verifies debug) r₀ k with nit := k }

/-- Search number `k` of the run from `x₀` is made from `x` along `d`. -/
def Launches (k : Nat) (x d : Vector K n) : Prop :=
  ∃ r, o.Reaches debug x₀ k r ∧ ¬ abs r.squaredNorm < o.setup.settings.tiny ∧ r.x = x ∧ r.u = d

/-- The loop of a run that has begun. -/
def finish (r₀ : Run K n) : Finish K n :=
  r₀.loop o.setup (o.setup.settings.verifies debug) o.setup.settings.maxIter 0

variable {o debug x₀} {r₀ : Run K n}

theorem begins_unique {r₁ : Run K n} (h : o.Begins x₀ r₀) (h₁ : o.Begins x₀ r₁) : r₀ = r₁ := by
  cases h with
  | intro hf hg =>
    cases h₁ with
    | intro hf₁ hg₁ =>
      rw [hf] at hf₁
      rw [hg] at hg₁
      cases hf₁
      cases hg₁
      rfl

theorem begins_or_abandons (o : Optimizer K n) (x₀ : Vector K n) :
    (∃ r₀, o.Begins x₀ r₀) ∨ ∃ nfev events e, o.Abandons x₀ nfev events e := by
  cases hf : o.setup.objective x₀ with
  | error e => exact .inr ⟨_, _, _, .objective hf⟩
  | ok fx =>
    cases hg : o.setup.vectorGradient x₀ with
    | error e => exact .inr ⟨_, _, _, .gradient hf hg⟩
    | ok gradient => exact .inl ⟨_, .intro hf hg⟩

theorem not_begins_of_abandons {nfev : Nat} {events : List (Event K n)} {e : Fault K}
    (h : o.Abandons x₀ nfev events e) : ¬ o.Begins x₀ r₀ := by
  rintro ⟨hf, hg⟩
  cases h with
  | objective hf' =>
    rw [hf] at hf'
    cases hf'
  | gradient hf' hg' =>
    rw [hg] at hg'
    cases hg'

theorem reaches_unique {k : Nat} {r r' : Run K n} (h : o.Reaches debug x₀ k r)
    (h' : o.Reaches debug x₀ k r') : r = r' := by
  obtain ⟨r₀, hb, -, -, rfl⟩ := h
  obtain ⟨r₁, hb₁, -, -, rfl⟩ := h'
  rw [begins_unique hb hb₁]

theorem nit_of_reaches {k : Nat} {r : Run K n} (h : o.Reaches debug x₀ k r) : r.nit = k := by
  obtain ⟨r₀, -, -, -, rfl⟩ := h
  rfl

/-- A run comes to every iteration before one that it comes to. -/
theorem Reaches.mono {j k : Nat} {r : Run K n} (h : o.Reaches debug x₀ k r) (hj : j ≤ k) :
    ∃ r', o.Reaches debug x₀ j r' := by
  obtain ⟨r₀, hb, hk, hl, -⟩ := h
  exact ⟨_, r₀, hb, by omega, hl.mono hj, rfl⟩

/-- The iteration that ends a run is the last one that it comes to. -/
theorem le_of_reaches {j k : Nat} {r r' : Run K n} {e : Exit K} (h : o.Reaches debug x₀ k r)
    (he : (r.iterate o.setup (o.setup.settings.verifies debug) k).exit = some e)
    (h' : o.Reaches debug x₀ j r') : j ≤ k := by
  obtain ⟨r₀, hb, -, -, rfl⟩ := h
  obtain ⟨r₁, hb₁, -, hl, -⟩ := h'
  rw [← begins_unique hb hb₁] at hl
  apply Nat.le_of_not_lt
  intro hkj
  rw [Run.iterate_nit, hl k hkj] at he
  cases he

theorem ends_of_reaches {k : Nat} {r r' : Run K n} {e : Exit K} (h : o.Reaches debug x₀ k r)
    (he : (r.iterate o.setup (o.setup.settings.verifies debug) k).exit = some e)
    (hr : (r.iterate o.setup (o.setup.settings.verifies debug) k).run = r') :
    r.Ends o.setup (o.setup.settings.verifies debug) r' e := by
  obtain ⟨r₀, -, -, -, rfl⟩ := h
  rw [Run.iterate_nit] at he hr
  rcases Run.iterate_cases o.setup (o.setup.settings.verifies debug) k
    (Run.after o.setup (o.setup.settings.verifies debug) r₀ k) with ⟨e', he', hends⟩ | ⟨hn, -⟩
  · rw [he] at he'
    cases he'
    rw [← hr]
    exact hends
  · rw [hn] at he
    cases he

theorem completes_of_reaches {k : Nat} {r r' : Run K n} (h : o.Reaches debug x₀ k r)
    (h' : o.Reaches debug x₀ (k + 1) r') :
    ∃ r'', r.Completes o.setup (o.setup.settings.verifies debug) r'' ∧
      r' = { r'' with nit := k + 1 } := by
  obtain ⟨r₀, hb, -, -, rfl⟩ := h
  obtain ⟨r₁, hb', -, hl, rfl⟩ := h'
  rw [← begins_unique hb hb'] at hl ⊢
  exact ⟨_, Run.completes_of_live hl, rfl⟩

theorem minimize_of_toPoint {c : Candidate K} (h : c.toPoint n = .ok x₀) :
    o.minimize debug c = .ok (o.minimizeFrom debug x₀) := by
  rw [minimize, h]
  rfl

theorem eq_of_minimize {c : Candidate K} {report : Report K n} (h : c.toPoint n = .ok x₀)
    (hm : o.minimize debug c = .ok report) : report = o.minimizeFrom debug x₀ := by
  rw [minimize_of_toPoint h] at hm
  exact (Except.ok.inj hm).symm

/-- A report is what the loop leaves behind. -/
theorem minimizeFrom_of_begins (debug : Bool) (h : o.Begins x₀ r₀) :
    let report := o.minimizeFrom debug x₀
    let f := o.finish debug r₀
    report.point = f.run.x ∧ report.exit = f.exit ∧
      report.optimizer = { o with memory := .ofRun f.run f.exit.status } ∧
      report.events = .value x₀ :: .gradient x₀ ::
        .notice (.started o.setup.settings.method.name o.setup.settings.lineSearch r₀.fx) ::
          f.events := by
  cases h with
  | intro hf hg =>
    simp [minimizeFrom, hf, hg, finish]

theorem minimizeFrom_of_abandons (debug : Bool) {nfev : Nat} {events : List (Event K n)}
    {e : Fault K} (h : o.Abandons x₀ nfev events e) :
    o.minimizeFrom debug x₀ = o.abandon x₀ nfev events e := by
  cases h with
  | objective hf => simp [minimizeFrom, hf]
  | gradient hf hg => simp [minimizeFrom, hf, hg]

/-- A run ends as one of the iterations that it reaches does, or its budget is exhausted. -/
theorem finish_ends (debug : Bool) (h : o.Begins x₀ r₀) :
    (∃ k r, o.Reaches debug x₀ k r ∧
        (r.iterate o.setup (o.setup.settings.verifies debug) k).exit =
          some (o.finish debug r₀).exit ∧
        (r.iterate o.setup (o.setup.settings.verifies debug) k).run = (o.finish debug r₀).run) ∨
      (Run.Live o.setup (o.setup.settings.verifies debug) r₀ o.setup.settings.maxIter ∧
        (o.finish debug r₀).run =
          { Run.after o.setup (o.setup.settings.verifies debug) r₀ o.setup.settings.maxIter with
            nit := o.setup.settings.maxIter } ∧
        (o.finish debug r₀).exit = .exhausted (o.finish debug r₀).run.fmin) := by
  have hl : Run.Live o.setup (o.setup.settings.verifies debug) r₀ 0 := Run.live_zero
  rcases Run.loop_ends o.setup.settings.maxIter hl with ⟨j, -, hj, hl, he⟩ | ⟨hl, hr, he⟩
  · rw [Nat.zero_add] at hj
    exact .inl ⟨j, _, ⟨r₀, h, hj, hl, rfl⟩, he⟩
  · rw [Nat.zero_add] at hl hr he
    have hr : (o.finish debug r₀).run = _ := hr
    exact .inr ⟨hl, hr, by rw [hr]; exact he⟩

/-- A run ends in an iteration that it reaches, or its budget is exhausted. -/
theorem finish_cases (debug : Bool) (h : o.Begins x₀ r₀) :
    (∃ k r, o.Reaches debug x₀ k r ∧ r.Ends o.setup (o.setup.settings.verifies debug)
        (o.finish debug r₀).run (o.finish debug r₀).exit) ∨
      (Run.Live o.setup (o.setup.settings.verifies debug) r₀ o.setup.settings.maxIter ∧
        (o.finish debug r₀).run =
          { Run.after o.setup (o.setup.settings.verifies debug) r₀ o.setup.settings.maxIter with
            nit := o.setup.settings.maxIter } ∧
        (o.finish debug r₀).exit = .exhausted (o.finish debug r₀).run.fmin) := by
  rcases finish_ends debug h with ⟨k, r, hr, hexit, hrun⟩ | hx
  · exact .inl ⟨k, r, hr, ends_of_reaches hr hexit hrun⟩
  · exact .inr hx

/-- A run that an iteration ends is left as that iteration leaves it. -/
theorem finish_of_reaches {k : Nat} {r : Run K n} {e : Exit K} (hb : o.Begins x₀ r₀)
    (h : o.Reaches debug x₀ k r)
    (he : (r.iterate o.setup (o.setup.settings.verifies debug) k).exit = some e) :
    (o.finish debug r₀).exit = e ∧
      (o.finish debug r₀).run = (r.iterate o.setup (o.setup.settings.verifies debug) k).run := by
  rcases finish_ends debug hb with ⟨j, r', hr', hexit, hrun⟩ | ⟨hl, -, -⟩
  · have hjk : j = k := Nat.le_antisymm (le_of_reaches h he hr') (le_of_reaches hr' hexit h)
    subst hjk
    rw [reaches_unique hr' h] at hexit hrun
    rw [he] at hexit
    exact ⟨(Option.some.inj hexit).symm, hrun.symm⟩
  · obtain ⟨r₁, hb₁, hk, -, rfl⟩ := h
    rw [begins_unique hb₁ hb, Run.iterate_nit, hl k hk] at he
    cases he

end Optimizer
end Descent
