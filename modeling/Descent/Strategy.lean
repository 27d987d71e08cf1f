import Descent.Search.Brent
import Descent.Search.Wolfe

/-! Line-search strategies, and their choice by name. -/
namespace Descent
variable {K : Type} [Scalar K]

/-- How to search along a line. A search gets the number of searches before it and, as a hint, the
value before the start of the line. -/
structure Strategy (K : Type) where
  name : String
  search : Nat → Line K → Option K → Search K (Step K)

/-- Which functions are at hand. -/
structure Supply where
  objective : Bool
  gradient : Bool

namespace Strategy

/-- The strong Wolfe search; the hint sets its first trial step. -/
def wolfe (o : Wolfe.Options K) : Strategy K where
  name := "wolfe"
  search _ l hint := Wolfe.search l { o with previous := hint }

/-- The search without derivatives. -/
def brent (o : Brent.Options K) : Strategy K where
  name := "brent"
  search _ l _ := Brent.bracketAndSearch l o

/-- Prescribed steps, one for each search; the last of them goes on. -/
def scripted (steps : List K) : Strategy K where
  name := "scripted"
  search k l _ :=
    match steps[k]? <|> steps.getLast? with
    | none => .fail .entryMissing
    | some t => do
      let value ← l.valueAt t
      return ⟨⟨t, value⟩, 1, 0⟩

/-- The Wolfe search, once its arguments have been checked. -/
def wolfe? (s : Supply) (o : Wolfe.Options K) : Except (Fault K) (Strategy K) :=
  if !s.gradient then .error .wolfeWithoutGradient
  else if ¬ Wolfe.Ordered o.c1 o.c2 then .error .unorderedConstants
  else if !s.objective then .error .objectiveMissing
  else .ok (wolfe o)

/-- The search without derivatives, once its arguments have been checked. -/
def brent? (s : Supply) (o : Brent.Options K) : Except (Fault K) (Strategy K) :=
  if o.tol ≤ 0.0 then .error .toleranceNotPositive
  else if !s.objective then .error .objectiveMissing
  else .ok (brent o)

/-- Prescribed steps, once it is checked that there is an objective. -/
def scripted? (s : Supply) (steps : List K) : Except (Fault K) (Strategy K) :=
  if !s.objective then .error .objectiveMissing else .ok (scripted steps)

end Strategy

/-- The strategies that can be chosen by name, in order of registration. -/
structure Registry (K : Type) where
  entries : List (String × (Supply → Except (Fault K) (Strategy K)))

namespace Registry

def standard : Registry K :=
  ⟨[("wolfe", (Strategy.wolfe? · .standard)), ("brent", (Strategy.brent? · .standard))]⟩

/-- The standard strategies and prescribed steps. -/
def withScript (steps : List K) : Registry K :=
  ⟨standard.entries ++ [("scripted", (Strategy.scripted? · steps))]⟩

def names (r : Registry K) : List String := r.entries.map (·.1)

/-- The strategy of that name. -/
def make (r : Registry K) (name : Option String) (s : Supply) : Except (Fault K) (Strategy K) :=
  match name.bind (r.entries.lookup ·) with
  | some build => build s
  | none => .error (.unknownStrategy name (r.names.mergeSort (fun a b => a ≤ b)))

end Registry

end Descent
