import Descent.Proofs.GradientCheck
import Descent.Scratch

/-! A check in place does what a check does, whatever the scratch vector holds: the point is copied
there before each sample, and is itself left alone. -/
namespace Descent.GradientCheck
variable {K : Type} {n : Nat} {α β : Type} {f : Objective K n} {x : Vector K n} {k : Fin n}

theorem sampled_nil (s : State K n) : s.sampled x k [] = s := by
  rw [State.sampled, List.map_nil, List.append_nil]
  rfl

theorem sampled_append (s : State K n) (ts us : List K) :
    s.sampled x k (ts ++ us) = (s.sampled x k ts).sampled x k us := by
  simp only [State.sampled, List.map_append, List.length_append, List.append_assoc,
    Nat.add_assoc, List.getLastD_eq_getLast?, List.getLast?_append]
  cases (us.map (x.set k · k.isLt)).getLast? <;> rfl

/-- How a computation on the point `x` leaves the memory. -/
def leave (x : Vector K n) (s : State K n) : Except (Fault K) α →
    EStateM.Result (Fault K) (Memory K n) α
  | .ok a => .ok a ⟨s, x⟩
  | .error e => .error e ⟨s, x⟩

/-- From any state, the computation makes the samples of `r` and ends as `r` does. -/
def Check.Follows (x : Vector K n) (k : Fin n) (m : Check K n α) (r : Traced K (Fault K) α) :
    Prop :=
  ∀ s, m ⟨s, x⟩ = leave x (s.sampled x k r.events) r.outcome

theorem follows_throw (e : Fault K) : (throw e : Check K n α).Follows x k (.fail e) := by
  intro s
  rw [Traced.fail, sampled_nil]
  rfl

theorem follows_ofExcept (r : Except (Fault K) α) :
    (Check.ofExcept r).Follows x k (liftM r : Traced K (Fault K) α) := by
  intro s
  change _ = leave x (s.sampled x k []) r
  rw [sampled_nil]
  cases r <;> rfl

theorem follows_bind {m : Check K n α} {m' : α → Check K n β} {r : Traced K (Fault K) α}
    {r' : α → Traced K (Fault K) β} (h : m.Follows x k r)
    (h' : ∀ a, r.outcome = .ok a → (m' a).Follows x k (r' a)) :
    (m >>= m').Follows x k (r >>= r') := by
  intro s
  have hs := h s
  change EStateM.bind m m' _ = _
  cases ho : r.outcome with
  | error e =>
    rw [ho] at hs
    rw [Traced.bind_error ho, EStateM.bind, hs]
    rfl
  | ok a =>
    rw [ho] at hs
    rw [Traced.bind_ok ho, EStateM.bind, hs, sampled_append]
    exact h' a ho _

/-- What the scratch vector holds is overwritten before it is read. -/
theorem follows_sampleIn (t : K) :
    (sampleIn f k t).Follows x k ⟨f (x.set k t k.isLt), [t]⟩ := by
  intro s
  change (Check.ofExcept (f (x.set k t k.isLt)) : Check K n K)
    ⟨⟨x.set k t k.isLt, s.evals + 1, s.points ++ [x.set k t k.isLt]⟩, x⟩ = _
  cases f (x.set k t k.isLt) <;> rfl

variable [Scalar K] {g : List K} {o : Options K}

theorem follows_derivativeIn (x₀ h : K) :
    (derivativeIn (sampleIn f k) x₀ h).Follows x k
      (derivative (fun t => f (x.set k t k.isLt)) x₀ h) := by
  unfold derivativeIn derivative
  dsimp only
  split
  · apply follows_bind (follows_throw _)
    rintro a ⟨⟩
  apply follows_bind (follows_sampleIn _)
  intro a _
  apply follows_bind (follows_sampleIn _)
  intro b _
  apply follows_bind (follows_sampleIn _)
  intro c _
  apply follows_bind (follows_sampleIn _)
  intro d _
  exact follows_ofExcept _

theorem componentIn_eq (k : Fin n) (s : State K n) : componentIn f g o k ⟨s, x⟩ =
    leave x (component f g x o k s).state (component f g x o k s).outcome := by
  have h := follows_derivativeIn (f := f) (k := k) (x := x) (x.get k) o.step s
  change EStateM.bind (derivativeIn (sampleIn f k) (x.get k) o.step) _ _ = _
  rw [component_eq, EStateM.bind, h]
  cases (derivative (fun t => f (x.set k t k.isLt)) (x.get k) o.step).outcome with
  | error e => rfl
  | ok expected =>
    change _ = leave x _ (verdict g o k expected)
    unfold verdict
    dsimp only [leave]
    cases g[k.val]? with
    | none => rfl
    | some actual =>
      dsimp only
      split <;> rfl

theorem componentsIn_eq (ks : List (Fin n)) (s : State K n) : componentsIn f g o ks ⟨s, x⟩ =
    leave x (components f g x o ks s).state (components f g x o ks s).outcome := by
  induction ks generalizing s with
  | nil => rfl
  | cons k ks ih =>
    change EStateM.bind (componentIn f g o k) _ _ = _
    rw [EStateM.bind, componentIn_eq, components]
    cases h : (component f g x o k s).outcome with
    | error e =>
      dsimp only
      rw [h]
      rfl
    | ok => exact ih _

/-- A check in place is a check, with the point as it was. -/
theorem runIn_eq (work : Vector K n) :
    let r := run f g x o work
    runIn f g o ⟨⟨work, 0, []⟩, x⟩ = match r.outcome with
      | .ok () => .ok r.state.evals ⟨r.state, x⟩
      | .error e => .error e ⟨r.state, x⟩ := by
  intro r
  have h : componentsIn f g o (List.finRange n) ⟨⟨work, 0, []⟩, x⟩ = leave x r.state r.outcome :=
    componentsIn_eq _ _
  change EStateM.bind (componentsIn f g o (List.finRange n)) _ _ = _
  rw [EStateM.bind, h]
  cases r.outcome <;> rfl

end Descent.GradientCheck
