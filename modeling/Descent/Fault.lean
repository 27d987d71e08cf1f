import Descent.Dimension
import Descent.Scalar
import Descent.Tensor
import Descent.Text.Quoted

/-! What can go wrong, and how it is told. -/
namespace Descent
open Text

inductive Fault (K : Type) where
  | divisionByZero
  /-- A difference step that is not positive. -/
  | stepNotPositive
  /-- A vector has no component of that index. -/
  | componentMissing (index : Int) (size : Nat)
  | gradientMismatch (index : Nat) (expected actual diff : K)
  | noBracket (expansions : Int)
  | unorderedConstants
  | ascentDirection
  | misaligned (gradient : Shape) (length : Nat)
  | slopeNotScalar
  | toleranceNotPositive
  | objectiveMissing
  | gradientMissing
  | wolfeWithoutGradient
  | problemWithoutGradient (user : String)
  | problemWithoutDimension
  | unknownStrategy (name : Option String) (known : List String)
  | dimension (reason : Dimension.Invalid)
  | unknownOption (owner name : String)
  | iterationsNotPositive (given : Int)
  | negativeSetting (name : String) (given : K)
  | checkStepNotPositive (given : K)
  | unknownMethod (name : Option String) (known : List String)
  | unknownLineSearch (name : Option String) (known : List String)
  | pointNotArray
  | pointShape (dim : Nat) (given : Shape)
  | pointType (given : String)
  | pointReadOnly
  | gradientShape (dim : Nat) (given : Shape)
  | notConverged (iterations : Int)
  | historyDimension (given : Int)
  | snapshotShape (dim : Nat) (point step : Shape)
  /-- A vector too long to be held. -/
  | tooLong (length : Nat)
  /-- A point and a direction of two lengths, neither of them one. -/
  | lengthsDiffer (point direction : Nat)
  /-- A point of one component that would have to take another length. -/
  | pointOutgrown (point result : Nat)
  /-- A scratch vector of another length than the point. -/
  | workLength (point work : Nat)
  /-- A function that is missing is called. -/
  | functionMissing
  /-- A list has no entry at the place asked for. -/
  | entryMissing
  /-- No value is left to be told. -/
  | valueMissing
  /-- No status is left to be told. -/
  | statusMissing

/-- A shape without blanks. -/
private def tightShape : Shape → String
  | [n] => s!"({n},)"
  | s => "(" ++ ",".intercalate (s.map toString) ++ ")"

/-- A name that was asked for, if it was one. -/
private def nameText : Option String → String
  | some name => quoted name
  | none => "None"

def Dimension.Invalid.message : Dimension.Invalid → String
  | missing => "int() argument must be a string, a bytes-like object or a real number, not 'NoneType'"
  | notANumber => "cannot convert float NaN to integer"
  | infinite => "cannot convert float infinity to integer"
  | notPositive d => s!"dim must be a positive integer, got {d.text}"

/-- The wording of a fault; `text` writes numbers. -/
def Fault.message {K : Type} (text : K → String) : Fault K → String
  | divisionByZero => "float division by zero"
  | stepNotPositive => "h must be positive"
  | componentMissing index size =>
    s!"index {index} is out of bounds for axis 0 with size {size}"
  | gradientMismatch index expected actual diff =>
    s!"gradient function is incorrect at component {index}: analytic=" ++ text actual ++
      ", numerical=" ++ text expected ++ ", diff=" ++ text diff
  | noBracket expansions => s!"could not bracket a minimum after {expansions} expansions"
  | unorderedConstants => "Require 0 < c1 < c2 < 1 for Wolfe conditions."
  | ascentDirection => "Search direction must be a descent direction."
  | misaligned s n =>
    let last := s.getLastD 0
    "shapes " ++ tightShape s ++ s!" and ({n},) not aligned: {last} (dim {s.length - 1}) != {n} (dim 0)"
  | slopeNotScalar => "only 0-dimensional arrays can be converted to Python scalars"
  | toleranceNotPositive => "tol must be positive"
  | objectiveMissing => "fun must be callable"
  | gradientMissing => "grad must be callable"
  | wolfeWithoutGradient => "WolfeLineSearch requires a gradient function."
  | problemWithoutGradient user => user ++ " requires problem.grad."
  | problemWithoutDimension => "ConjugateGradient requires problem.dim."
  | unknownStrategy name known =>
    "Unknown line search " ++ nameText name ++ "; expected one of " ++ quotedList "[" "]" known ++ "."
  | dimension reason => reason.message
  | unknownOption owner name => owner ++ "() got an unexpected keyword argument '" ++ name ++ "'"
  | iterationsNotPositive given => s!"max_iter must be >= 1, got {given}."
  | negativeSetting name given => name ++ " must be non-negative, got " ++ text given ++ "."
  | checkStepNotPositive given => "gradient_check_step must be positive, got " ++ text given ++ "."
  | unknownMethod name known =>
    "method must be one of " ++ quotedList "(" ")" known ++ ", got " ++ nameText name ++ "."
  | unknownLineSearch name known =>
    "line_search must be one of " ++ quotedList "(" ")" known ++ ", got " ++ nameText name ++ "."
  | pointNotArray => "x must be a numpy array; it is updated in place"
  | pointShape dim given => s!"x must have shape ({dim},), got " ++ given.text
  | pointType given => "x must have dtype float64, got " ++ given
  | pointReadOnly => "x must be writeable"
  | gradientShape dim given => s!"gradient must have shape ({dim},), got " ++ given.text
  | notConverged iterations => s!"failed to converge after {iterations} iterations"
  | historyDimension given => s!"dim must be positive, got {given}"
  | snapshotShape dim point step =>
    s!"expected vectors of shape ({dim},), got " ++ point.text ++ " and " ++ step.text
  | tooLong length => Dimension.refusal length
  | lengthsDiffer point direction =>
    s!"operands could not be broadcast together with shapes ({point},) ({direction},) "
  | pointOutgrown point result =>
    s!"non-broadcastable output operand with shape ({point},) doesn't match the broadcast shape ({result},)"
  | workLength point work =>
    s!"could not broadcast input array from shape ({point},) into shape ({work},)"
  | functionMissing => "'NoneType' object is not callable"
  | entryMissing => "list index out of range"
  | valueMissing => "float() argument must be a string or a real number, not 'NoneType'"
  | statusMissing => "None"

/-- Division that fails on a zero divisor. -/
def quotient {K : Type} [Scalar K] (a b : K) : Except (Fault K) K :=
  if b == 0.0 then .error .divisionByZero else .ok (a / b)

end Descent
