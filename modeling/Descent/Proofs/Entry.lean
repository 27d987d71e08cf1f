import Mathlib
import Descent.ConjugateGradient.Solve
import Descent.Proofs.Afresh
import Descent.Proofs.Solution

/-! A problem is solved by the run of a new optimizer from a copy of the starting point. -/
namespace Descent
variable {K : Type} {n : ℕ}

namespace Candidate
variable {c : Candidate K} {x : Vector K n} {e : Fault K}

theorem values_of_toPoint (h : c.toPoint n = .ok x) : c.values = .ofVector x := by
  by_cases hv : c.Valid n
  · obtain ⟨y, hy, hvalues⟩ := toPoint_of_valid hv
    rw [h] at hy
    cases hy
    exact hvalues
  · obtain ⟨e, he⟩ := toPoint_of_not_valid hv
    rw [h] at he
    cases he

theorem ne_notConverged_of_toPoint (h : c.toPoint n = .error e) (i : ℤ) : e ≠ .notConverged i := by
  rintro rfl
  unfold toPoint at h
  split at h
  · cases h
  · cases h
  · split_ifs at h
    · cases h
    · cases h

end Candidate

theorem Tensor.exists_ofVector {t : Tensor K} (h : t.shape = [n]) :
    ∃ v : Vector K n, t = .ofVector v := by
  obtain ⟨v, hv⟩ := Option.isSome_iff_exists.mp ((toVector?_isSome t).mpr h)
  exact ⟨v, eq_ofVector hv⟩

variable [Scalar K]

/-- Settings that are accepted are those that were asked for. -/
theorem Draft.toDraft_of_validate {known : List String} {d : Draft K} {s : Settings K}
    (h : d.validate known = .ok s) : s.toDraft = d := by
  unfold validate at h
  split_ifs at h with h₁ h₂ h₃ h₄ h₅ h₆
  split at h
  · cases h
  · cases h
  · rename_i method lineSearch hm hl
    cases h
    obtain ⟨name, hname, hfind⟩ := Option.bind_eq_some_iff.mp hm
    have hmethod : method.name = name := by simpa using List.find?_some hfind
    have hiter : ((d.maxIter.toNat : ℕ) : ℤ) = d.maxIter := Int.toNat_of_nonneg (by omega)
    have hsearch : d.lineSearch = some lineSearch := (Option.filter_eq_some_iff.mp hl).1
    simp only [Settings.toDraft, hiter, hmethod, ← hname, ← hsearch]

theorem Optimizer.toDraft_of_create {o : Optimizer K n} {registry : Registry K}
    {f : Option (Objective K n)} {g : Option (Gradient K n)} {d : Draft K}
    (h : create registry f g (.ok d) = .ok o) :
    o.setup.settings.toDraft = d := by
  unfold create at h
  split at h
  · cases h
  · cases h
  · simp only [bind, Except.bind] at h
    split at h
    · cases h
    · rename_i settings hs
      split at h
      · cases h
      · split at h
        · cases h
        · cases h
          exact Draft.toDraft_of_validate hs

namespace Optimizer
variable {o : Optimizer K n} {debug : Bool}

theorem toPoint_of_minimize {c : Candidate K} {report : Report K n}
    (h : o.minimize debug c = .ok report) :
    ∃ x, c.toPoint n = .ok x ∧ report = o.minimizeFrom debug x := by
  cases hc : c.toPoint n with
  | ok x => exact ⟨x, rfl, eq_of_minimize hc h⟩
  | error e =>
    rw [minimize, hc] at h
    cases h

theorem toPoint_of_minimize_error {c : Candidate K} {e : Fault K}
    (h : o.minimize debug c = .error e) : c.toPoint n = .error e := by
  cases hc : c.toPoint n with
  | ok x =>
    rw [minimize_of_toPoint hc] at h
    cases h
  | error e' =>
    rw [minimize, hc] at h
    cases h
    rfl

end Optimizer

namespace Minimizer
variable {m : Minimizer K n} {report : Report K n} {c : Candidate K} {x : Vector K n}

theorem tellArray_ofVector (m : Minimizer K n) (y : Vector K n) (value : Option K) (success : Bool) :
    m.tellArray (.ofVector y) value success = m.toOptimizer.tell y value success := by
  unfold tellArray
  rw [Tensor.toVector?_ofVector]

/-- What is told after a call is what is told of the run that it makes. -/
theorem conclude_minimize (hc : c.toPoint n = .ok x) (m : Minimizer K n) (debug : Bool) :
    (m.minimize debug c).conclude = (m.toOptimizer.minimizeFrom debug x).conclude := by
  obtain ⟨hopt, hpoint, -, houtcome⟩ := minimize_of_toPoint m debug hc
  have htell : (m.minimize debug c).minimizer.tellArray (m.minimize debug c).point.values =
      (m.toOptimizer.minimizeFrom debug x).optimizer.tell (m.toOptimizer.minimizeFrom debug x).point := by
    funext value success
    rw [hpoint, tellArray_ofVector, hopt]
  rw [Call.conclude, Report.conclude, houtcome, htell, hopt]

variable {debug : Bool} {s : Store K} {place : ℕ} {t : Tensor K} {e : Fault K}

theorem found_solveAt_of_error (hc : Candidate.toPoint n ⟨t, .array .float64 true⟩ = .error e) :
    (m.solveAt s place t debug).found = .fail e := by
  unfold solveAt
  dsimp only
  rw [minimize_of_error hc, Call.conclude,
    concludeWith_of_error _ _ (Candidate.ne_notConverged_of_toPoint hc)]
  rfl

theorem found_solveAt (hc : Candidate.toPoint n ⟨t, .array .float64 true⟩ = .ok x) :
    (m.solveAt s place t debug).found = m.toOptimizer.solve debug x := by
  unfold solveAt
  dsimp only
  rw [conclude_minimize hc, (minimize_of_toPoint m debug hc).2.2.1]
  rfl

/-- A call whose run ends without a fault is told as that run. -/
theorem solveAt_tells (m : Minimizer K n)
    (hs : (∃ w, m.memory.search.strategy = .wolfe w) ∨ ∃ b, m.memory.search.strategy = .brent b)
    (hg : ∀ y, ∃ u : Vector K n, m.setup.gradient y = .ok (.ofVector u))
    (hc : Candidate.toPoint n ⟨t, .array .float64 true⟩ = .ok x)
    (hx : ∀ e, (m.toOptimizer.minimizeFrom debug x).exit ≠ .failed e) :
    let solved := m.solveAt s place t debug
    ∃ r, solved.found.outcome = .ok r ∧
      r.njev = solved.found.events.countP Event.isGradient ∧
      r.Tells m.setup.objective m.setup.gradient m.setup.settings.toDraft x
        (m.toOptimizer.Visits debug x) (m.toOptimizer.minimizeFrom debug x) := by
  intro solved
  obtain ⟨r₀, hb⟩ := Optimizer.begins_of_minimizeFrom hx
  have hfinish : ∀ e, (m.toOptimizer.finish debug r₀).exit ≠ .failed e := by
    rw [← (Optimizer.minimizeFrom_of_begins debug hb).2.1]
    exact hx
  obtain ⟨u, hu⟩ := hg (m.toOptimizer.finish debug r₀).run.x
  obtain ⟨r, hr, hnjev, htells⟩ := Optimizer.tells_solve hs hb hfinish hu
  have hfound : solved.found = m.toOptimizer.solve debug x := found_solveAt hc
  rw [hr] at hfound
  -- the type of the events depends on what is solved, so that there is no rewriting
  refine ⟨r, congrArg Traced.outcome hfound, hnjev.trans ?_, htells⟩
  exact (congrArg (fun t : Traced (Event K n) (Fault K) (Solution K) =>
    t.events.countP Event.isGradient) hfound).symm

theorem read_solveAt (hc : Candidate.toPoint n ⟨t, .array .float64 true⟩ = .ok x)
    (hp : place < s.next) : (m.solveAt s place t debug).store.read place =
      some (.ofVector (m.toOptimizer.minimizeFrom debug x).point) := by
  unfold solveAt
  dsimp only
  rw [(minimize_of_toPoint m debug hc).2.1, Store.read_write hp]

end Minimizer

namespace Problem
variable {p : Problem K} {g : ∀ n, Gradient K n} {s : Store K} {place : ℕ} {x₀ : Tensor K}
  {debug : Bool} {draft : Draft K}

/-- The dimension of the problem, or else the number of elements of the starting point. -/
def dimAt (p : Problem K) (x₀ : Tensor K) : Dimension :=
  match p.dim with
  | .missing => .whole x₀.size
  | d => d

theorem optimizerAt_of_gradient (hg : p.gradient = some g) (x₀ : Tensor K) (draft : Draft K) :
    p.optimizerAt x₀ draft = { p with dim := p.dimAt x₀ }.build .standard (.ok draft) := by
  obtain ⟨objective, gradient, dim⟩ := p
  cases hg
  cases dim <;> rfl

theorem create_of_build {registry : Registry K} {d : Except (Fault K) (Draft K)}
    {o : Optimizer K n} (h : p.build registry d = .ok ⟨n, o⟩) :
    p.dim.toNat? = .ok n ∧
      Optimizer.create registry (p.objective.map (· n)) (p.gradient.map (· n)) d = .ok o := by
  unfold build at h
  split at h
  · cases h
  · rename_i m hm
    cases ho : Optimizer.create registry (p.objective.map (· m)) (p.gradient.map (· m)) d with
    | error e =>
      rw [ho] at h
      cases h
    | ok o' =>
      rw [ho] at h
      cases h
      exact ⟨hm, ho⟩

/-- What the optimizer of a problem is made of: the functions of the problem in its dimension, one
of the two searches, and the settings that were asked for. -/
theorem parts_of_build {o : Optimizer K n} (h : p.build .standard (.ok draft) = .ok ⟨n, o⟩) :
    p.dim.toNat? = .ok n ∧ (∃ f, p.objective = some f ∧ f n = o.setup.objective) ∧
      (∃ g, p.gradient = some g ∧ g n = o.setup.gradient) ∧
      ((∃ w, o.memory.search.strategy = .wolfe w) ∨ ∃ b, o.memory.search.strategy = .brent b) ∧
      o.setup.settings.toDraft = draft := by
  obtain ⟨hn, hcreate⟩ := create_of_build h
  obtain ⟨hf, hg, -⟩ := Optimizer.eq_of_create hcreate
  refine ⟨hn, Option.map_eq_some_iff.mp hf, Option.map_eq_some_iff.mp hg, ?_,
    Optimizer.toDraft_of_create hcreate⟩
  rcases Optimizer.strategy_of_create hcreate with hs | hs
  · exact .inl ⟨_, hs⟩
  · exact .inr ⟨_, hs⟩

theorem solveIn_of_error (hx : s.read place = some x₀) {e : Fault K}
    (h : p.optimizerAt x₀ draft = .error e) :
    p.solveIn s place debug draft = ⟨s.add x₀, 0, .fail e⟩ := by
  unfold solveIn
  rw [hx]
  dsimp only
  rw [h]

theorem solveIn_of_ok (hx : s.read place = some x₀) {o : Optimizer K n}
    (h : p.optimizerAt x₀ draft = .ok ⟨n, o⟩) :
    p.solveIn s place debug draft =
      Minimizer.solveAt ⟨o, .blank⟩ (s.add x₀) s.next x₀ debug := by
  unfold solveIn
  rw [hx]
  dsimp only
  rw [h]

/-- The run works on a copy: all arrays are left as they are. -/
theorem read_solveIn (hx : s.read place = some x₀) {q : ℕ} (hq : q < s.next) :
    (p.solveIn s place debug draft).store.read q = s.read q := by
  cases h : p.optimizerAt x₀ draft with
  | error e =>
    rw [solveIn_of_error hx h]
    exact Store.read_add_of_lt hq
  | ok built =>
    rw [solveIn_of_ok hx h]
    exact (Store.read_write_of_ne hq.ne').trans (Store.read_add_of_lt hq)

/-- What is found in a store is what is found without one. -/
theorem solve_eq_solveIn (hx : s.read place = some x₀) (p : Problem K) (debug : Bool)
    (draft : Draft K) :
    p.solve x₀ debug draft =
      (p.solveIn s place debug draft).found.filterMapEvents Event.notice? := by
  unfold solve
  cases h : p.optimizerAt x₀ draft with
  | error e =>
    rw [solveIn_of_error hx h, Traced.bind_error rfl]
    rfl
  | ok built =>
    obtain ⟨n, o⟩ := built
    rw [solveIn_of_ok hx h, Traced.bind_ok rfl]
    dsimp only
    cases hc : Candidate.toPoint n ⟨x₀, .array .float64 true⟩ with
    | error e =>
      have hfound : (Minimizer.solveAt ⟨o, .blank⟩ (s.add x₀) s.next x₀ debug).found = .fail e :=
        Minimizer.found_solveAt_of_error hc
      rw [Traced.bind_error rfl]
      exact (congrArg (Traced.filterMapEvents Event.notice?) hfound).symm
    | ok x =>
      have hfound : (Minimizer.solveAt ⟨o, .blank⟩ (s.add x₀) s.next x₀ debug).found =
          o.solve debug x := Minimizer.found_solveAt hc
      rw [Traced.bind_ok rfl]
      exact (congrArg (Traced.filterMapEvents Event.notice?) hfound).symm

/-- A problem is solved by the run of an optimizer from a copy of the starting point. A fault of its
construction or of the run remains one. If the run returns or exhausts its budget, the solution
tells it, with all gradients called for, that at the end included. A function that fails as an
exhausted budget does is taken for one, but leaves no status, and perhaps no value, to be told. By
`solve_eq_solveIn` all this holds of `solve` too. -/
theorem solveIn_tells (p : Problem K) (hg : p.gradient = some g) (s : Store K)
    (hx : s.read place = some x₀) (debug : Bool) (draft : Draft K)
    (hshape : ∀ n, (p.dimAt x₀).toNat? = .ok n →
      ∀ x : Vector K n, ∃ t, g n x = .ok t ∧ t.shape = [n]) :
    let c : Candidate K := ⟨x₀, .array .float64 true⟩
    let built := { p with dim := p.dimAt x₀ }.build .standard (.ok draft)
    let solved := p.solveIn s place debug draft
    (∀ q < s.next, solved.store.read q = s.read q) ∧
    (∀ e, built = .error e → solved.found.outcome = .error e) ∧
    ∀ n o, built = .ok ⟨n, o⟩ →
      (∀ e, o.minimize debug c = .error e → solved.found.outcome = .error e) ∧
      ∀ report, o.minimize debug c = .ok report →
        solved.store.read s.next = some (.ofVector report.point) ∧
        (∀ e, report.exit = .failed e → (∀ i, e ≠ .notConverged i) →
          solved.found.outcome = .error e) ∧
        (∀ i, report.exit = .failed (.notConverged i) → solved.found.outcome =
          .error (if report.optimizer.memory.fmin.isSome then .statusMissing else .valueMissing)) ∧
        ((∀ e, report.exit ≠ .failed e) → ∃ f x r, p.objective = some f ∧ x₀ = .ofVector x ∧
          solved.found.outcome = .ok r ∧
          r.njev = solved.found.events.countP Event.isGradient ∧
          r.Tells (f n) (g n) draft x (o.Visits debug x) report) := by
  intro c built solved
  have hbuilt : p.optimizerAt x₀ draft = built := optimizerAt_of_gradient hg x₀ draft
  refine ⟨fun q hq => read_solveIn hx hq, ?_, ?_⟩
  · intro e he
    rw [he] at hbuilt
    simp only [solved]
    rw [solveIn_of_error hx hbuilt]
    rfl
  · intro n o ho
    rw [ho] at hbuilt
    have hsolved : solved = _ := solveIn_of_ok hx hbuilt
    obtain ⟨hn, ⟨f, hf, hfn⟩, ⟨g', hg', hgn⟩, hstrategy, hdraft⟩ := parts_of_build ho
    cases hg.symm.trans hg'
    rw [hsolved]
    refine ⟨?_, ?_⟩
    · intro e he
      exact congrArg Traced.outcome
        (Minimizer.found_solveAt_of_error (Optimizer.toPoint_of_minimize_error he))
    · intro report hreport
      obtain ⟨x, hc, rfl⟩ := Optimizer.toPoint_of_minimize hreport
      have hvector : ∀ y, ∃ u : Vector K n, o.setup.gradient y = .ok (.ofVector u) := by
        intro y
        obtain ⟨t, ht, hs⟩ := hshape n hn y
        obtain ⟨u, rfl⟩ := Tensor.exists_ofVector hs
        exact ⟨u, hgn ▸ ht⟩
      refine ⟨Minimizer.read_solveAt hc (by simp), ?_, ?_, ?_⟩
      · intro e he hne
        exact (congrArg Traced.outcome (Minimizer.found_solveAt hc)).trans
          (Optimizer.outcome_solve_of_failed he hne)
      · intro i hi
        obtain ⟨u, hu⟩ := hvector (o.minimizeFrom debug x).point
        exact (congrArg Traced.outcome (Minimizer.found_solveAt hc)).trans
          (Optimizer.outcome_solve_of_notConverged hi hu)
      · intro hexit
        obtain ⟨r, hr, hnjev, htells⟩ :=
          Minimizer.solveAt_tells ⟨o, .blank⟩ hstrategy hvector hc hexit
        exact ⟨f, x, r, hf, Candidate.values_of_toPoint hc, hr, hnjev,
          hfn ▸ hgn ▸ hdraft ▸ htells⟩

/-- The sum of the squares of the components, in any dimension. -/
def squares : Problem ℚ where
  objective := some fun _ x => .ok (dot x x)
  gradient := some fun _ x => .ok (.ofVector (scale 2 x))
  dim := .missing

theorem solveIn_tells_squares :
    let x₀ : Tensor ℚ := .ofVector #v[3, 2]
    let s : Store ℚ := Store.empty.add x₀
    let draft : Draft ℚ := { Draft.standard with history := true }
    let solved := squares.solveIn s 0 false draft
    solved.store.read 0 = some x₀ ∧ ∃ (n : ℕ) (o : Optimizer ℚ n) (report : Report ℚ n)
      (x : Vector ℚ n) (r : Solution ℚ), x₀ = .ofVector x ∧
        o.minimize false ⟨x₀, .array .float64 true⟩ = .ok report ∧ solved.found.outcome = .ok r ∧
        r.njev = solved.found.events.countP Event.isGradient ∧
        r.Tells (fun x => .ok (dot x x)) (fun x => .ok (.ofVector (scale 2 x))) draft x
          (o.Visits false x) report := by
  intro x₀ s draft solved
  have hread : s.read 0 = some x₀ := rfl
  obtain ⟨hkept, -, htells⟩ := solveIn_tells squares rfl s hread false draft
    fun _ _ x => ⟨_, rfl, rfl⟩
  refine ⟨hkept 0 (by decide), ?_⟩
  have hruns : (match { squares with dim := squares.dimAt x₀ }.build .standard (.ok draft) with
      | .ok ⟨_, o⟩ =>
        match o.minimize false ⟨x₀, .array .float64 true⟩ with
        | .ok report => report.outcome.isOk
        | .error _ => false
      | .error _ => false) = true := by decide +kernel
  split at hruns
  · rename_i n o ho
    split at hruns
    · rename_i report hreport
      have hexit : ∀ e, report.exit ≠ .failed e := by
        intro e he
        rw [Report.outcome, he] at hruns
        cases hruns
      obtain ⟨f, x, r, hf, hx, hr, hnjev, h⟩ := ((htells n o ho).2 report hreport).2.2.2 hexit
      cases hf
      exact ⟨n, o, report, x, r, hx, hreport, hr, hnjev, h⟩
    · cases hruns
  · cases hruns

end Problem
end Descent
