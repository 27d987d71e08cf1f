import Descent.Decimal.Digits

/-! Texts of doubles: the shortest one that reads back, and one of a given precision. -/
namespace Descent.Decimal

/-- How digits are laid out. -/
structure Notation where
  /-- Exponents below this one are written out. -/
  low : Int
  /-- So are exponents from this one on. -/
  high : Int
  /-- Whole numbers in positional form end in `.0`. -/
  keepsPoint : Bool

private def exponentText (e : Int) : String :=
  let ds := toString e.natAbs
  (if e < 0 then "e-" else "e+") ++ (if ds.length < 2 then "0" ++ ds else ds)

private def positional (keepsPoint : Bool) (d : Digits) : List Char :=
  if d.exponent < 0 then
    "0.".toList ++ List.replicate (-d.exponent - 1).toNat '0' ++ d.digits
  else
    let whole := d.exponent.toNat + 1
    let front := d.digits.take whole
    let fraction := d.digits.drop whole
    front ++ List.replicate (whole - front.length) '0' ++
      (if fraction.isEmpty then (if keepsPoint then ".0".toList else []) else '.' :: fraction)

private def scientific (d : Digits) : List Char :=
  let fraction := d.digits.drop 1
  d.digits.take 1 ++ (if fraction.isEmpty then [] else '.' :: fraction) ++
    (exponentText d.exponent).toList

def Notation.layout (f : Notation) (d : Digits) : String :=
  String.ofList <|
    if f.low ≤ d.exponent && d.exponent < f.high then positional f.keepsPoint d
    else scientific d

/-- The significand `m`, the exponent `q` and whether the gap below is half as wide, for the
positive finite double `m * 2 ^ q` with these bits. -/
private def decode (bits : Nat) : Nat × Int × Bool :=
  let field : Nat := bits / 0x10000000000000 % 0x800
  let fraction : Nat := bits % 0x10000000000000
  if field = 0 then (fraction, -1074, false)
  else (fraction + 0x10000000000000, (field : Int) - 1075, fraction = 0 && field > 1)

/-- The reals that round to `m * 2 ^ q`: the ends belong to it iff `m` is even. -/
private def roundingInterval (m : Nat) (q : Int) (narrow : Bool) : Interval :=
  ⟨.ofPower (4 * m - if narrow then 1 else 2) 2 (q - 2), .ofPower (4 * m + 2) 2 (q - 2),
    m % 2 == 0⟩

/-- The text of a double whose digits are chosen by `pick` from its value and the interval of
reals that round to it. -/
def Notation.render (f : Notation) (pick : Ratio → Interval → Digits) (x : Float) : String :=
  if x.isNaN then "nan"
  else
    let bits := x.toBits.toNat
    let sign := if bits / 0x8000000000000000 = 1 then "-" else ""
    let body :=
      if x.isInf then "inf"
      else
        let (m, q, narrow) := decode bits
        if m = 0 then f.layout ⟨['0'], 0⟩
        else f.layout (pick (.ofPower m 2 q) (roundingInterval m q narrow))
    sign ++ body

/-- The fewest digits that read back, positional from `1e-4` up to `1e16`. -/
def shortestText : Float → String := Notation.render ⟨-4, 16, true⟩ shortest

/-- At most `precision` digits; positional if the exponent is at least -4 and below the
precision. -/
def generalText (precision : Nat) : Float → String :=
  Notation.render ⟨-4, precision, false⟩ fun r _ => rounded precision r

end Descent.Decimal
