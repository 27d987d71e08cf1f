import Descent.Fault

/-! Settings of the optimizer: as they are asked for, and as they are accepted. -/
namespace Descent

/-- How a new direction remembers the last one. -/
inductive Method where
  | polakRibiere
  | fletcherReeves
deriving Repr, DecidableEq

namespace Method

def all : List Method := [polakRibiere, fletcherReeves]

def name : Method → String
  | polakRibiere => "polak-ribiere"
  | fletcherReeves => "fletcher-reeves"

def ofName? (s : String) : Option Method := all.find? (·.name == s)

theorem ofName?_name (m : Method) : ofName? m.name = some m := by
  cases m <;> decide

end Method

/-- Settings as they are asked for. -/
structure Draft (K : Type) where
  maxIter : Int
  ftol : K
  gtol : K
  tiny : K
  method : Option String
  lineSearch : Option String
  /-- Whether gradients are verified; if unset, the debug mode decides. -/
  checkGradient : Option Bool
  checkTol : K
  checkStep : K
  history : Bool

variable {K : Type} [Scalar K]

def Draft.standard : Draft K where
  maxIter := 200
  ftol := 1e-8
  gtol := 1e-8
  tiny := 1e-18
  method := Method.polakRibiere.name
  lineSearch := "wolfe"
  checkGradient := none
  checkTol := 1e-12
  checkStep := 1e-3
  history := false

/-- Settings as they are accepted. -/
structure Settings (K : Type) [Scalar K] where
  maxIter : Nat
  ftol : K
  gtol : K
  tiny : K
  method : Method
  lineSearch : String
  checkGradient : Option Bool
  checkTol : K
  checkStep : K
  history : Bool
  maxIter_pos : 0 < maxIter
  ftol_nonneg : ftol ≥ 0.0
  gtol_nonneg : gtol ≥ 0.0
  tiny_nonneg : tiny ≥ 0.0
  checkTol_nonneg : checkTol ≥ 0.0
  checkStep_pos : checkStep > 0.0

/-- Checks the settings in order; `known` are the line searches that can be chosen. -/
def Draft.validate (known : List String) (d : Draft K) : Except (Fault K) (Settings K) :=
  if h₁ : d.maxIter < 1 then .error (.iterationsNotPositive d.maxIter)
  else if h₂ : ¬ d.ftol ≥ 0.0 then .error (.negativeSetting "ftol" d.ftol)
  else if h₃ : ¬ d.gtol ≥ 0.0 then .error (.negativeSetting "gtol" d.gtol)
  else if h₄ : ¬ d.tiny ≥ 0.0 then .error (.negativeSetting "tiny" d.tiny)
  else if h₅ : ¬ d.checkTol ≥ 0.0 then .error (.negativeSetting "gradient_check_tol" d.checkTol)
  else if h₆ : ¬ d.checkStep > 0.0 then .error (.checkStepNotPositive d.checkStep)
  else match d.method.bind Method.ofName?, d.lineSearch.filter (known.contains ·) with
    | none, _ => .error (.unknownMethod d.method (Method.all.map (·.name)))
    | _, none => .error (.unknownLineSearch d.lineSearch known)
    | some method, some lineSearch => .ok {
      d with
      maxIter := d.maxIter.toNat, method, lineSearch,
      maxIter_pos := by omega, ftol_nonneg := Decidable.not_not.mp h₂,
      gtol_nonneg := Decidable.not_not.mp h₃, tiny_nonneg := Decidable.not_not.mp h₄,
      checkTol_nonneg := Decidable.not_not.mp h₅, checkStep_pos := Decidable.not_not.mp h₆ }

namespace Settings

/-- Whether gradients are verified, given the debug mode. -/
def verifies (debug : Bool) (s : Settings K) : Bool := s.checkGradient.getD debug

/-- The settings as a draft, to be changed and checked again. -/
def toDraft (s : Settings K) : Draft K :=
  { s with maxIter := s.maxIter, method := s.method.name }

end Settings
end Descent
