/-! Computations that may fail and leave a trace of events, kept also when they fail. -/
namespace Descent

structure Traced (E F α : Type) where
  outcome : Except F α
  events : List E

namespace Traced
variable {E E' F α β : Type} {a : α} {f : α → Traced E F β}

/-- The events of both parts, or of the first alone if it fails. -/
def bind (r : Traced E F α) (f : α → Traced E F β) : Traced E F β :=
  match r.outcome with
  | .ok a =>
    let s := f a
    ⟨s.outcome, r.events ++ s.events⟩
  | .error e => ⟨.error e, r.events⟩

instance : Monad (Traced E F) where
  pure a := ⟨.ok a, []⟩
  bind := bind

instance : MonadLift (Except F) (Traced E F) where
  monadLift r := ⟨r, []⟩

def fail (e : F) : Traced E F α := ⟨.error e, []⟩

def emit (e : E) : Traced E F Unit := ⟨.ok (), [e]⟩

def mapEvents (g : E → E') (r : Traced E F α) : Traced E' F α := ⟨r.outcome, r.events.map g⟩

def filterMapEvents (g : E → Option E') (r : Traced E F α) : Traced E' F α :=
  ⟨r.outcome, r.events.filterMap g⟩

@[simp] theorem pure_outcome : (pure a : Traced E F α).outcome = .ok a := rfl

@[simp] theorem pure_events : (pure a : Traced E F α).events = [] := rfl

theorem bind_ok {r : Traced E F α} (h : r.outcome = .ok a) :
    r >>= f = ⟨(f a).outcome, r.events ++ (f a).events⟩ := by
  simp [Bind.bind, bind, h]

theorem bind_error {r : Traced E F α} {e : F} (h : r.outcome = .error e) :
    r >>= f = ⟨.error e, r.events⟩ := by
  simp [Bind.bind, bind, h]

end Traced
end Descent
