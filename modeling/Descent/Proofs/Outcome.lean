import Descent.Line

/-! What a computation did before it succeeded or failed, one part at a time. -/
namespace Descent

section
variable {F α β : Type} {x : Except F α} {f : α → Except F β}

theorem Except.bind_eq_ok {b : β} : x >>= f = .ok b ↔ ∃ a, x = .ok a ∧ f a = .ok b := by
  cases x with
  | error e => simp [bind, Except.bind]
  | ok a => simp [bind, Except.bind]

theorem Except.bind_eq_error {e : F} :
    x >>= f = .error e ↔ x = .error e ∨ ∃ a, x = .ok a ∧ f a = .error e := by
  cases x with
  | error e' => simp [bind, Except.bind]
  | ok a => simp [bind, Except.bind]

end

namespace Traced
variable {E F α β : Type} {a : α} {b : β} {es : List E} {r : Traced E F α} {f : α → Traced E F β}
  {x : Except F α}

theorem eq_of_outcome (h : r.outcome = .ok a) : r = ⟨.ok a, r.events⟩ := by
  rw [← h]

theorem outcome_bind (h : r.outcome = .ok a) : (r >>= f).outcome = (f a).outcome := by
  rw [bind_ok h]

theorem bind_eq_ok : r >>= f = ⟨.ok b, es⟩ ↔
    ∃ a es₁ es₂, r = ⟨.ok a, es₁⟩ ∧ f a = ⟨.ok b, es₂⟩ ∧ es = es₁ ++ es₂ := by
  constructor
  · intro h
    cases hr : r.outcome with
    | error e =>
      rw [bind_error hr] at h
      cases h
    | ok a =>
      rw [bind_ok hr, mk.injEq] at h
      exact ⟨a, r.events, (f a).events, eq_of_outcome hr, eq_of_outcome h.1, h.2.symm⟩
  · rintro ⟨a, es₁, es₂, rfl, hf, rfl⟩
    rw [bind_ok rfl, hf]

theorem bind_assoc {γ : Type} (r : Traced E F α) (f : α → Traced E F β) (g : β → Traced E F γ) :
    r >>= f >>= g = r >>= fun a => f a >>= g := by
  cases hr : r.outcome with
  | error e => rw [bind_error hr, bind_error hr, bind_error rfl]
  | ok a =>
    rw [bind_ok hr, bind_ok hr]
    cases hf : (f a).outcome with
    | error e => rw [bind_error hf, bind_error rfl]
    | ok b => rw [bind_ok hf, bind_ok rfl, List.append_assoc]

/-- A function of the result leaves no trace. -/
theorem bind_pure (r : Traced E F α) (f : α → β) :
    (do return f (← r)) = (⟨r.outcome.map f, r.events⟩ : Traced E F β) := by
  cases hr : r.outcome with
  | error e => exact bind_error hr
  | ok a => rw [bind_ok hr, pure_outcome, pure_events, List.append_nil, Except.map]

theorem pure_eq_ok {a' : α} : (pure a : Traced E F α) = ⟨.ok a', es⟩ ↔ a = a' ∧ es = [] := by
  constructor
  · intro h
    cases h
    exact ⟨rfl, rfl⟩
  · rintro ⟨rfl, rfl⟩
    rfl

/-- A part that leaves no trace. -/
theorem lift_bind_eq_ok : (liftM x : Traced E F α) >>= f = ⟨.ok b, es⟩ ↔
    ∃ a, x = .ok a ∧ f a = ⟨.ok b, es⟩ := by
  rw [bind_eq_ok]
  constructor
  · rintro ⟨a, _, es₂, hx, hf, rfl⟩
    cases hx
    exact ⟨a, rfl, hf⟩
  · rintro ⟨a, rfl, hf⟩
    exact ⟨a, [], es, rfl, hf, rfl⟩

theorem exists_of_isOk (h : r.outcome.isOk = true) : ∃ a, r = ⟨.ok a, r.events⟩ := by
  cases ho : r.outcome with
  | error e =>
    rw [ho] at h
    cases h
  | ok a => exact ⟨a, eq_of_outcome ho⟩

/-- If the computation fails, then with such a fault. -/
structure FailsOnly (P : F → Prop) (r : Traced E F α) : Prop where
  fault : ∀ {e}, r.outcome = .error e → P e

section
variable {P : F → Prop}

theorem failsOnly_pure (a : α) : (pure a : Traced E F α).FailsOnly P := by
  constructor
  intro e h
  cases h

theorem failsOnly_of_ok (h : r.outcome = .ok a) : r.FailsOnly P := by
  constructor
  intro e he
  cases h.symm.trans he

/-- What cannot fail gives a result. -/
theorem exists_ok (h : r.FailsOnly fun _ => False) : ∃ a es, r = ⟨.ok a, es⟩ := by
  cases ho : r.outcome with
  | error e => exact (h.fault ho).elim
  | ok a => exact ⟨a, r.events, eq_of_outcome ho⟩

theorem failsOnly_fail {e : F} (he : P e) : (fail e : Traced E F α).FailsOnly P := by
  constructor
  rintro e' ⟨⟩
  exact he

theorem failsOnly_bind (hr : r.FailsOnly P) (hf : ∀ a, r.outcome = .ok a → (f a).FailsOnly P) :
    (r >>= f).FailsOnly P := by
  constructor
  intro e h
  cases ho : r.outcome with
  | error e' =>
    rw [bind_error ho] at h
    cases h
    exact hr.fault ho
  | ok a =>
    rw [bind_ok ho] at h
    exact (hf a ho).fault h

theorem failsOnly_lift_bind (hx : ∀ e, x = .error e → P e)
    (hf : ∀ a, x = .ok a → (f a).FailsOnly P) : ((liftM x : Traced E F α) >>= f).FailsOnly P :=
  failsOnly_bind ⟨fun h => hx _ h⟩ hf

end

/-- All events are of that kind, those before a fault too. -/
structure Emits (P : E → Prop) (r : Traced E F α) : Prop where
  event : ∀ {e}, e ∈ r.events → P e

section
variable {P : E → Prop}

theorem emits_pure (a : α) : (pure a : Traced E F α).Emits P := ⟨by simp⟩

theorem emits_fail (e : F) : (fail e : Traced E F α).Emits P := ⟨by simp [fail]⟩

theorem emits_bind (hr : r.Emits P) (hf : ∀ a, (f a).Emits P) : (r >>= f).Emits P := by
  constructor
  intro e h
  cases ho : r.outcome with
  | error e' =>
    rw [bind_error ho] at h
    exact hr.event h
  | ok a =>
    rw [bind_ok ho] at h
    rcases List.mem_append.mp h with h | h
    · exact hr.event h
    · exact (hf a).event h

theorem emits_lift_bind (hf : ∀ a, (f a).Emits P) : ((liftM x : Traced E F α) >>= f).Emits P :=
  emits_bind ⟨by simp [liftM, monadLift, MonadLift.monadLift]⟩ hf

end

end Traced

namespace Line
variable {K β : Type} {l : Line K} {t : K} {b : β} {es : List (Probe K)} {f : K → Search K β}

theorem valueAt_bind_eq_ok : l.valueAt t >>= f = ⟨.ok b, es⟩ ↔
    ∃ v es', l.value t = .ok v ∧ f v = ⟨.ok b, es'⟩ ∧ es = .value t :: es' := by
  rw [Traced.bind_eq_ok]
  constructor
  · rintro ⟨v, es₁, es₂, hv, hf, rfl⟩
    rw [valueAt, Traced.mk.injEq] at hv
    exact ⟨v, es₂, hv.1, hf, by simp [← hv.2]⟩
  · rintro ⟨v, es', hv, hf, rfl⟩
    exact ⟨v, [.value t], es', by rw [valueAt, hv], hf, rfl⟩

theorem slopeAt_bind_eq_ok : l.slopeAt t >>= f = ⟨.ok b, es⟩ ↔
    ∃ v es', l.slope t = .ok v ∧ f v = ⟨.ok b, es'⟩ ∧ es = .slope t :: es' := by
  rw [Traced.bind_eq_ok]
  constructor
  · rintro ⟨v, es₁, es₂, hv, hf, rfl⟩
    rw [slopeAt, Traced.mk.injEq] at hv
    exact ⟨v, es₂, hv.1, hf, by simp [← hv.2]⟩
  · rintro ⟨v, es', hv, hf, rfl⟩
    exact ⟨v, [.slope t], es', by rw [slopeAt, hv], hf, rfl⟩

theorem emits_valueAt {P : Probe K → Prop} (l : Line K) (h : P (.value t)) :
    (l.valueAt t).Emits P := by
  constructor
  intro e he
  rwa [List.mem_singleton.mp he]

end Line
end Descent
