import Descent.Formula.Powers

/-! Gradients of formulas, from the result back to the components. -/
namespace Descent.Formula
variable {K : Type} [Scalar K]

/-- Does the value at a point come from a component of the point? Of a choice only the operand that
is taken counts. -/
def dependsAt (w : Powers K) (x : Array K) : Formula K → Bool
  | const _ => false
  | component _ => true
  | neg a | abs a | sqrt a | power a _ | group a => a.dependsAt w x
  | add a b | sub a b | mul a b | div a b => a.dependsAt w x || b.dependsAt w x
  | min a b =>
    if b.evalWith w.power x < a.evalWith w.power x then b.dependsAt w x else a.dependsAt w x
  | max a b =>
    if b.evalWith w.power x > a.evalWith w.power x then b.dependsAt w x else a.dependsAt w x
  | ifLess a b c d =>
    if a.evalWith w.power x < b.evalWith w.power x then c.dependsAt w x else d.dependsAt w x

/-- Adds a vector that is `seed` at index `i` and zero elsewhere. -/
def addAt (acc : Array K) (i : Int) (seed : K) : Array K :=
  let k := place? acc.size i
  acc.mapIdx fun j a => a + if some j = k then seed else 0.0

/-- Adds `seed` times the gradient to `acc`, one use of a component after the other, the last one
first. -/
def backward (w : Powers K) (x : Array K) (seed : K) (acc : Array K) : Formula K → Array K
  | const _ => acc
  | component i => addAt acc i seed
  | add a b => a.backward w x seed (b.backward w x seed acc)
  | sub a b => a.backward w x seed (b.backward w x (-seed) acc)
  | mul a b =>
    a.backward w x (seed * b.evalWith w.power x)
      (b.backward w x (seed * a.evalWith w.power x) acc)
  | div a b =>
    let va := a.evalWith w.power x
    let vb := b.evalWith w.power x
    a.backward w x (seed / vb) (b.backward w x (-seed * (va / vb / vb)) acc)
  | neg a => a.backward w x (-seed) acc
  | abs a =>
    let v := a.evalWith w.power x
    a.backward w x (if v > 0.0 then seed else if v < 0.0 then -seed else seed * v) acc
  | sqrt a => a.backward w x (seed / (2.0 * Scalar.sqrt (a.evalWith w.power x))) acc
  | power a 0 => a.backward w x 0.0 acc
  | power a (n + 1) =>
    a.backward w x (seed * w.multiple (n + 1) (w.power (a.evalWith w.power x) n)) acc
  | min a b =>
    if b.evalWith w.power x < a.evalWith w.power x then b.backward w x seed acc
    else a.backward w x seed acc
  | max a b =>
    if b.evalWith w.power x > a.evalWith w.power x then b.backward w x seed acc
    else a.backward w x seed acc
  | ifLess a b c d =>
    if a.evalWith w.power x < b.evalWith w.power x then c.backward w x seed acc
    else d.backward w x seed acc
  | group a => a.backward w x seed acc

/-- The gradient at a point. The sum starts at negative zero, which leaves the sign of the first
zero added to it. -/
def gradient (w : Powers K) (f : Formula K) (x : Array K) : Array K :=
  f.backward w x 1.0 (Array.replicate x.size (-0.0))

end Descent.Formula
