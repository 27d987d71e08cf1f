import Mathlib
import Descent.Formula.Basic
import Descent.Proofs.Quadratic
import Descent.Proofs.Run.Shadow
import Descent.Proofs.Run.Workspace

/-! Calls on one minimizer are independent: whatever the earlier ones have left behind, the next one
does what it would do on a new minimizer, once it has its first value and gradient. -/
namespace Descent
variable {K : Type} {n : ℕ}

/-- A tensor that is a vector. -/
theorem Tensor.eq_ofVector {t : Tensor K} {v : Vector K n} (h : t.toVector? n = some v) :
    t = .ofVector v := by
  obtain ⟨shape, entries⟩ := t
  unfold toVector? at h
  split at h
  · rename_i hs
    dsimp only at hs
    subst hs
    cases h
    rfl
  · cases h

/-- The arrays that a call accepts: writeable, in double precision, and of shape `(n,)`. -/
def Candidate.Valid (n : ℕ) (c : Candidate K) : Prop :=
  c.container = .array .float64 true ∧ c.values.shape = [n]

theorem Candidate.toPoint_of_valid {c : Candidate K} (h : c.Valid n) :
    ∃ x, c.toPoint n = .ok x ∧ c.values = .ofVector x := by
  obtain ⟨values, container⟩ := c
  obtain ⟨rfl, hs⟩ := h
  obtain ⟨x, hx⟩ := Option.isSome_iff_exists.mp ((Tensor.toVector?_isSome values).mpr hs)
  refine ⟨x, ?_, Tensor.eq_ofVector hx⟩
  simp [toPoint, hx]

theorem Candidate.toPoint_of_not_valid {c : Candidate K} (h : ¬ c.Valid n) :
    ∃ e, c.toPoint n = .error e := by
  obtain ⟨values, container⟩ := c
  cases container with
  | list => exact ⟨_, rfl⟩
  | array type writeable =>
    cases hv : values.toVector? n with
    | none => exact ⟨.pointShape n values.shape, by simp [toPoint, hv]⟩
    | some x =>
      have hs : values.shape = [n] := (Tensor.toVector?_isSome values).mp (hv ▸ rfl)
      by_cases ht : type = .float64
      · have hw : writeable = false := by
          apply Bool.eq_false_of_not_eq_true
          rintro rfl
          exact h ⟨by rw [ht], hs⟩
        exact ⟨.pointReadOnly, by simp [toPoint, hv, ht, hw]⟩
      · exact ⟨.pointType type.name, by simp [toPoint, hv, ht]⟩

variable [Scalar K]

namespace Setup
variable {s : Setup K n} {x : Vector K n} {t : Tensor K}

theorem vectorGradient_of_shape (h : s.gradient x = .ok t) (ht : t.shape = [n]) :
    ∃ u, s.vectorGradient x = .ok u := by
  obtain ⟨u, hu⟩ := Option.isSome_iff_exists.mp ((Tensor.toVector?_isSome t).mpr ht)
  exact ⟨u, by simp only [vectorGradient, h, bind, Except.bind, hu]⟩

theorem vectorGradient_of_not_shape (h : s.gradient x = .ok t) (ht : t.shape ≠ [n]) :
    s.vectorGradient x = .error (.gradientShape n t.shape) := by
  have hnone : t.toVector? n = none := by
    rw [← Option.not_isSome_iff_eq_none, Tensor.toVector?_isSome]
    exact ht
  simp only [vectorGradient, h, bind, Except.bind, hnone]

end Setup

/-- The search depends on its line and its hint only, not on the number of searches before it. -/
def Strategy.Memoryless (s : Strategy K) : Prop :=
  ∀ j k line hint, s.search j line hint = s.search k line hint

namespace Strategy
variable {supply : Supply} {st : Strategy K}

theorem memoryless_wolfe (o : Wolfe.Options K) : (wolfe o).Memoryless := fun _ _ _ _ => rfl

theorem memoryless_brent (o : Brent.Options K) : (brent o).Memoryless := fun _ _ _ _ => rfl

theorem eq_of_wolfe? {o : Wolfe.Options K} (h : wolfe? supply o = .ok st) : st = wolfe o := by
  unfold wolfe? at h
  split at h
  · cases h
  · split at h
    · cases h
    · split at h
      · cases h
      · exact (Except.ok.inj h).symm

theorem eq_of_brent? {o : Brent.Options K} (h : brent? supply o = .ok st) : st = brent o := by
  unfold brent? at h
  split at h
  · cases h
  · split at h
    · cases h
    · exact (Except.ok.inj h).symm

end Strategy

/-- There are two strategies to choose from. -/
theorem Registry.cases_of_make {name : Option String} {supply : Supply} {st : Strategy K}
    (h : Registry.standard.make name supply = .ok st) : st = .wolfe .standard ∨ st = .brent .standard := by
  unfold make at h
  split at h
  · rename_i build hb
    obtain ⟨s, -, hb⟩ := Option.bind_eq_some_iff.mp hb
    simp only [standard, List.lookup] at hb
    split at hb
    · cases hb
      exact .inl (Strategy.eq_of_wolfe? h)
    · split at hb
      · cases hb
        exact .inr (Strategy.eq_of_brent? h)
      · cases hb
  · cases h

/-- A new optimizer has the functions that it is given and the strategy of its name, and it
remembers nothing. -/
theorem Optimizer.eq_of_create {registry : Registry K} {f : Option (Objective K n)}
    {g : Option (Gradient K n)} {draft : Except (Fault K) (Draft K)} {o : Optimizer K n}
    (h : create registry f g draft = .ok o) :
    f = some o.setup.objective ∧ g = some o.setup.gradient ∧
      ∃ st, registry.make o.setup.settings.lineSearch ⟨true, true⟩ = .ok st ∧
        o.memory = .initial st := by
  unfold create at h
  split at h
  · cases h
  · cases h
  · cases draft with
    | error e => cases h
    | ok d =>
      simp only [bind, Except.bind] at h
      split at h
      · cases h
      · split at h
        · cases h
        · simp only [pure, Except.pure] at h
          split at h
          · cases h
          · rename_i st hst
            cases h
            exact ⟨rfl, rfl, st, hst, rfl⟩

/-- A new optimizer has one of the two searches, with standard options. -/
theorem Optimizer.strategy_of_create {f : Option (Objective K n)} {g : Option (Gradient K n)}
    {draft : Except (Fault K) (Draft K)} {o : Optimizer K n}
    (h : create .standard f g draft = .ok o) :
    o.memory.search.strategy = .wolfe .standard ∨ o.memory.search.strategy = .brent .standard := by
  obtain ⟨-, -, st, hst, hmemory⟩ := eq_of_create h
  rw [hmemory]
  exact Registry.cases_of_make hst

/-- The minimizer after calls in turn, each under a debug flag of its own. -/
def Minimizer.afterCalls (m : Minimizer K n) (calls : List (Bool × Candidate K)) :
    Minimizer K n :=
  calls.foldl (fun m call => (m.minimize call.1 call.2).minimizer) m

namespace Minimizer
variable {m fresh : Minimizer K n} {debug : Bool} {c : Candidate K}

/-- What calls leave alone: the functions, the settings and the strategy. -/
structure Resembles (m fresh : Minimizer K n) : Prop where
  setup : m.setup = fresh.setup
  strategy : m.memory.search.strategy = fresh.memory.search.strategy

theorem setup_minimize (m : Minimizer K n) (debug : Bool) (c : Candidate K) :
    (m.minimize debug c).minimizer.setup = m.setup := by
  cases hc : c.toPoint n with
  | error e => rw [minimize_of_error hc]
  | ok x₀ =>
    rw [(minimize_of_toPoint m debug hc).1]
    rcases Optimizer.begins_or_abandons m.toOptimizer x₀ with ⟨r₀, hb⟩ | ⟨nfev, events, e, ha⟩
    · rw [(Optimizer.minimizeFrom_of_begins debug hb).2.2.1]
    · rw [Optimizer.minimizeFrom_of_abandons debug ha]
      rfl

theorem resembles_minimize (m : Minimizer K n) (debug : Bool) (c : Candidate K) :
    (m.minimize debug c).minimizer.Resembles m := by
  refine ⟨setup_minimize m debug c, ?_⟩
  cases hc : c.toPoint n with
  | error e => rw [minimize_of_error hc]
  | ok x₀ =>
    rcases Optimizer.begins_or_abandons m.toOptimizer x₀ with ⟨r₀, hb⟩ | ⟨nfev, events, e, ha⟩
    · have hmemory := (Optimizer.inPlace_of_begins m.work debug hc hb).2.1
      have hmemory : (m.minimize debug c).minimizer.memory = _ := hmemory
      rw [hmemory]
      refine Optimizer.finish_keeps (I := fun r => r.search.strategy = m.memory.search.strategy) hb
        ?_ ?_ ?_
      · cases hb
        rfl
      · intro r r' ha hr
        exact ha.strategy.trans hr
      · intro k r step _ hr _
        exact Run.strategy_searched.trans hr
    · obtain ⟨-, hmemory, -, -⟩ := Optimizer.inPlace_of_abandons m.work debug hc ha
      have hmemory : (m.minimize debug c).minimizer.memory = _ := hmemory
      rw [hmemory]

theorem Resembles.trans {m' m'' : Minimizer K n} (h : m''.Resembles m') (h' : m'.Resembles m) :
    m''.Resembles m :=
  ⟨h.setup.trans h'.setup, h.strategy.trans h'.strategy⟩

/-- By induction on the calls: each of them leaves alone what they all do. -/
theorem resembles_afterCalls (m : Minimizer K n) (calls : List (Bool × Candidate K)) :
    (m.afterCalls calls).Resembles m := by
  induction calls generalizing m with
  | nil => exact ⟨rfl, rfl⟩
  | cons call calls ih =>
    exact (ih (m.minimize call.1 call.2).minimizer).trans (resembles_minimize m call.1 call.2)

section
variable {f : Option (Objective K n)} {g : Option (Gradient K n)}
  {draft : Except (Fault K) (Draft K)}

theorem eq_of_create {registry : Registry K} (h : create registry f g draft = .ok m) :
    Optimizer.create registry f g draft = .ok m.toOptimizer := by
  unfold create at h
  cases ho : Optimizer.create registry f g draft with
  | error e =>
    rw [ho] at h
    cases h
  | ok o =>
    rw [ho] at h
    cases h
    rfl

theorem exists_of_isSome {registry : Registry K}
    (h : (create registry f g draft).toOption.isSome = true) :
    ∃ m, create registry f g draft = .ok m := by
  cases hm : create registry f g draft with
  | error e =>
    rw [hm] at h
    cases h
  | ok m => exact ⟨m, rfl⟩

theorem memoryless_of_create (h : create .standard f g draft = .ok m) :
    m.memory.search.strategy.Memoryless := by
  rcases Optimizer.strategy_of_create (eq_of_create h) with hs | hs
  · rw [hs]
    exact Strategy.memoryless_wolfe _
  · rw [hs]
    exact Strategy.memoryless_brent _

end

end Minimizer

namespace Optimizer
variable {o o' : Optimizer K n} {debug : Bool} {x₀ : Vector K n} {r₀ : Run K n} {c : Candidate K}

/-- Runs of two optimizers that differ in what they remember do the same. -/
theorem finish_of_resembles (hsetup : o'.setup = o.setup)
    (hs : o'.memory.search.strategy = o.memory.search.strategy)
    (hm : o.memory.search.strategy.Memoryless) (hb : o.Begins x₀ r₀) (debug : Bool) :
    ∃ r₁, o'.Begins x₀ r₁ ∧
      let f := o.finish debug r₀
      let f' := o'.finish debug r₁
      (∃ l, f'.run = { f.run with search := l }) ∧ f'.exit = f.exit ∧
        Event.calls f'.events = Event.calls f.events := by
  obtain ⟨setup, memory⟩ := o
  obtain ⟨setup', memory'⟩ := o'
  dsimp only at hsetup hs hm
  subst hsetup
  cases hb with
  | intro hf hg =>
    rename_i fx gradient
    refine ⟨_, .intro (o := ⟨setup', memory'⟩) hf hg, ?_⟩
    have hruns : (Shadow.uncounted.coupling 0).runs (begin ⟨setup', memory⟩ x₀ fx gradient)
        (begin ⟨setup', memory'⟩ x₀ fx gradient) := ⟨_, _, rfl, ⟨hs, hm⟩, rfl⟩
    obtain ⟨⟨hist, l, rfl, -, hrun⟩, hexit, hcalls⟩ := Run.loop_shadow
      setup'.settings.checkGradient setup'.settings.history (setup'.settings.verifies debug) hruns
      (Nat.zero_add setup'.settings.maxIter).le
    exact ⟨⟨l, hrun⟩, hexit, hcalls⟩

end Optimizer

namespace Minimizer
variable {m fresh : Minimizer K n} {debug : Bool} {c : Candidate K} {x₀ : Vector K n}

/-- A call that comes to its first gradient does what it would do on a new minimizer. -/
theorem minimize_of_begins (h : m.Resembles fresh) (hm : fresh.memory.search.strategy.Memoryless)
    (hc : c.toPoint n = .ok x₀) {r₀ : Run K n} (hb : fresh.Begins x₀ r₀) :
    let a := m.minimize debug c
    let b := fresh.minimize debug c
    a.point = b.point ∧ a.outcome = b.outcome ∧ Event.calls a.events = Event.calls b.events ∧
      a.minimizer.memory = { b.minimizer.memory with search := a.minimizer.memory.search } := by
  intro a b
  obtain ⟨r₁, hb', ⟨l, hrun⟩, hexit, hcalls⟩ :=
    Optimizer.finish_of_resembles h.setup h.strategy hm hb debug
  obtain ⟨hpoint, hmemory, hevents, houtcome⟩ :=
    Optimizer.inPlace_of_begins fresh.work debug hc hb
  obtain ⟨hpoint', hmemory', hevents', houtcome'⟩ :=
    Optimizer.inPlace_of_begins m.work debug hc hb'
  have hmemory : b.minimizer.memory = _ := hmemory
  have hmemory' : a.minimizer.memory = _ := hmemory'
  refine ⟨?_, ?_, ?_, ?_⟩
  · refine (hpoint'.trans ?_).trans hpoint.symm
    rw [hrun]
  · refine (houtcome'.trans ?_).trans houtcome.symm
    rw [hexit, h.setup]
  · refine (hevents'.trans ?_).trans hevents.symm
    rw [hcalls]
  · rw [hmemory, hmemory', hrun, hexit]
    rfl

/-- A call that does not come so far resets the counts and the status, and leaves all else. -/
theorem minimize_of_abandons (debug : Bool) (hc : c.toPoint n = .ok x₀)
    (hx : c.values = .ofVector x₀) {nfev : ℕ} {events : List (Event K n)} {e : Fault K}
    (ha : m.Abandons x₀ nfev events e) :
    let a := m.minimize debug c
    a.outcome = .error e ∧ a.point = c ∧
      a.minimizer.memory = { m.memory with nfev, njev := 0, nit := 0, status := none } := by
  intro a
  obtain ⟨hpoint, hmemory, -, houtcome⟩ := Optimizer.inPlace_of_abandons m.work debug hc ha
  have hpoint : a.point = _ := hpoint
  refine ⟨houtcome, ?_, hmemory⟩
  rw [hpoint, ← hx]

/-- Calls on one minimizer are independent. An array that is refused is left as it is, and so is the
minimizer. If the first value and the first gradient are accepted, the call does what it does on a
new minimizer; only the line search may still hold the counts of a search before. If the first
gradient is not a vector of the right length, or if there is no first value, the array is left as it
is, and the value and the history are those of the call before. -/
theorem minimize_afresh {f : Option (Objective K n)} {g : Option (Gradient K n)}
    {draft : Except (Fault K) (Draft K)} (hcreate : create .standard f g draft = .ok fresh)
    (calls : List (Bool × Candidate K)) (debug : Bool) (c : Candidate K) :
    let m := fresh.afterCalls calls
    let a := m.minimize debug c
    let b := fresh.minimize debug c
    (¬ c.Valid n → ∃ e, a = ⟨m, c, [], .error e⟩) ∧
    (c.Valid n → ∃ x, c.values = .ofVector x ∧
      (∀ fx t, fresh.setup.objective x = .ok fx → fresh.setup.gradient x = .ok t → t.shape = [n] →
        a.point = b.point ∧ a.outcome = b.outcome ∧ Event.calls a.events = Event.calls b.events ∧
        a.minimizer.memory = { b.minimizer.memory with search := a.minimizer.memory.search }) ∧
      (∀ fx t, fresh.setup.objective x = .ok fx → fresh.setup.gradient x = .ok t → t.shape ≠ [n] →
        a.outcome = .error (.gradientShape n t.shape) ∧ a.point = c ∧
        a.minimizer.memory = { m.memory with nfev := 1, njev := 0, nit := 0, status := none }) ∧
      ∀ e, fresh.setup.objective x = .error e →
        a.outcome = .error e ∧ a.point = c ∧
        a.minimizer.memory = { m.memory with nfev := 0, njev := 0, nit := 0, status := none }) := by
  intro m a b
  have hresembles : m.Resembles fresh := resembles_afterCalls fresh calls
  refine ⟨?_, ?_⟩
  · intro hvalid
    obtain ⟨e, he⟩ := Candidate.toPoint_of_not_valid hvalid
    exact ⟨e, minimize_of_error he⟩
  · intro hvalid
    obtain ⟨x, hc, hx⟩ := Candidate.toPoint_of_valid hvalid
    refine ⟨x, hx, ?_, ?_, ?_⟩
    · intro fx t hf hg ht
      obtain ⟨u, hu⟩ := Setup.vectorGradient_of_shape hg ht
      exact minimize_of_begins hresembles (memoryless_of_create hcreate) hc (.intro hf hu)
    · intro fx t hf hg ht
      rw [← hresembles.setup] at hf hg
      exact minimize_of_abandons debug hc hx
        (.gradient hf (Setup.vectorGradient_of_not_shape hg ht))
    · intro e hf
      rw [← hresembles.setup] at hf
      exact minimize_of_abandons debug hc hx (.objective hf)

theorem minimize_afresh_bowl :
    ∃ fresh : Minimizer ℚ 2, create .standard (some Quadratic.bowl.objective)
        (some Quadratic.bowl.gradient) (.ok .standard) = .ok fresh ∧
      let c : Candidate ℚ := .ofVector #v[3, 2]
      let m := fresh.afterCalls [(false, c), (true, .ofVector #v[1, 1])]
      c.Valid 2 ∧ (m.minimize false c).outcome = (fresh.minimize false c).outcome ∧
        (m.minimize false c).point = (fresh.minimize false c).point := by
  have hcreated : (create .standard (some Quadratic.bowl.objective)
      (some Quadratic.bowl.gradient) (.ok .standard)).toOption.isSome = true := by decide +kernel
  obtain ⟨fresh, hcreate⟩ := exists_of_isSome hcreated
  refine ⟨fresh, hcreate, ?_⟩
  intro c m
  have hvalid : c.Valid 2 := ⟨rfl, rfl⟩
  obtain ⟨hf, hg, -⟩ := Optimizer.eq_of_create (eq_of_create hcreate)
  obtain ⟨x, hx, hsame, -⟩ := (minimize_afresh hcreate
    [(false, c), (true, .ofVector #v[1, 1])] false c).2 hvalid
  rw [← Option.some.inj hf, ← Option.some.inj hg] at hsame
  obtain ⟨hpoint, houtcome, -⟩ := hsame _ _ rfl rfl rfl
  exact ⟨hvalid, houtcome, hpoint⟩

/-- The square of the only component; below -10 it asks for one that there is not. -/
def halfSquare : Formula ℚ :=
  .ifLess (.component 0) (.const (-10)) (.component 5) (.mul (.component 0) (.component 0))

/-- The derivative of the square. -/
def halfSlope : Gradient ℚ 1 := fun x => .ok (.ofVector #v[2 * x[0]])

/-- Without a first value, a call is not that on a new minimizer: the value of the call before is
left. -/
theorem minimize_not_afresh :
    ∃ fresh : Minimizer ℚ 1, create .standard (some (halfSquare.toObjective 1)) (some halfSlope)
        (.ok .standard) = .ok fresh ∧
      let c : Candidate ℚ := .ofVector #v[-20]
      let m := fresh.afterCalls [(false, .ofVector #v[1])]
      c.Valid 1 ∧ (∃ t, fresh.setup.gradient #v[-20] = .ok t ∧ t.shape = [1]) ∧
        (m.minimize false c).minimizer.memory.fmin ≠
          (fresh.minimize false c).minimizer.memory.fmin := by
  have hcreated : (create .standard (some (halfSquare.toObjective 1)) (some halfSlope)
      (.ok .standard)).toOption.isSome = true := by decide +kernel
  obtain ⟨fresh, hcreate⟩ := exists_of_isSome hcreated
  refine ⟨fresh, hcreate, ?_⟩
  intro c m
  obtain ⟨hf, hg, st, -, hmemory⟩ := Optimizer.eq_of_create (eq_of_create hcreate)
  have hf : fresh.setup.objective = halfSquare.toObjective 1 := (Option.some.inj hf).symm
  have hg : fresh.setup.gradient = halfSlope := (Option.some.inj hg).symm
  have hpoint : ∀ x : Vector ℚ 1, (Candidate.ofVector x).toPoint 1 = .ok x :=
    Candidate.toPoint_ofVector
  have hhigh : fresh.setup.objective #v[1] = .ok (1 * 1) := by
    rw [hf]
    exact if_pos (by decide +kernel)
  have hslope : fresh.setup.vectorGradient #v[1] = .ok #v[2 * 1] := by
    rw [Setup.vectorGradient, hg]
    rfl
  -- both calls are abandoned at once, and only the used minimizer has a value to leave in place
  have hlow : ∀ m : Minimizer ℚ 1, m.setup = fresh.setup →
      m.Abandons #v[-20] 0 [.value #v[-20]] .entryMissing := by
    intro m hm
    refine .objective ?_
    rw [hm, hf]
    exact if_neg (by decide +kernel)
  have hvalue : m.memory.fmin ≠ none := by
    have h : m.memory = _ :=
      (Optimizer.inPlace_of_begins fresh.work false (hpoint _) (.intro hhigh hslope)).2.1
    rw [h]
    exact Option.some_ne_none _
  have hnone : fresh.memory.fmin = none := by
    rw [hmemory]
    rfl
  refine ⟨⟨rfl, rfl⟩, ⟨_, by rw [hg]; rfl, rfl⟩, ?_⟩
  obtain ⟨-, -, hm⟩ := minimize_of_abandons false (hpoint _) rfl (hlow m (setup_minimize _ _ _))
  obtain ⟨-, -, hfresh⟩ := minimize_of_abandons false (hpoint _) rfl (hlow fresh rfl)
  rw [hm, hfresh]
  change m.memory.fmin ≠ fresh.memory.fmin
  rw [hnone]
  exact hvalue

end Minimizer
end Descent
