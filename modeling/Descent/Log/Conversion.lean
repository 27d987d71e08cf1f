import Descent.Binary.Rounding
import Descent.Text.Quoted

/-! Conversions of a value into padded text. -/
namespace Descent.Log

/-- How a field is laid out: the flags, the least width, the precision and the kind. -/
structure Conversion where
  flags : List Char
  width : Nat
  precision : Option Nat
  kind : Char

/-- What a field stands for. -/
inductive Value where
  | text (s : String)
  | number (n : Int)

namespace Conversion
variable (c : Conversion)

def has (flag : Char) : Bool := c.flags.contains flag

/-- Fills up to the width: to the right if so flagged, else with blanks in front or, for numbers,
with zeros after the sign. -/
def pad (zeros : Bool) (sign body : List Char) : List Char :=
  let gap := c.width - (sign.length + body.length)
  if c.has '-' then sign ++ body ++ List.replicate gap ' '
  else if zeros then sign ++ List.replicate gap '0' ++ body
  else List.replicate gap ' ' ++ sign ++ body

/-- A text, cut to the precision. -/
def layText (s : String) : List Char :=
  c.pad false [] (match c.precision with
    | some p => s.toList.take p
    | none => s.toList)

/-- A number given by its digits, with `mark` between the sign and the digits. -/
def layNumber (n : Int) (mark : String) (digits : List Char) : List Char :=
  let sign := if n < 0 then ['-'] else if c.has '+' then ['+'] else if c.has ' ' then [' '] else []
  c.pad (c.has '0') (sign ++ if c.has '#' then mark.toList else []) digits

/-- At least as many digits as the precision asks for. -/
def whole (base n : Nat) : List Char :=
  let ds := Nat.toDigits base n
  List.replicate (c.precision.getD 0 - ds.length) '0' ++ ds

/-- The digits after the point, which is left out if there are none. -/
def fraction (ds : List Char) : List Char := if ds.isEmpty && !c.has '#' then [] else '.' :: ds

def fixed (n : Nat) : List Char :=
  Nat.toDigits 10 n ++ c.fraction (List.replicate (c.precision.getD 6) '0')

/-- No double has more decimal digits before the point than this. -/
def mostDigits : Nat := 309

/-- Up to `count` significant digits. -/
def significant (count n : Nat) : Decimal.Digits :=
  if n = 0 then ⟨['0'], 0⟩ else Decimal.rounded (min count mostDigits) ⟨n, 1⟩

/-- Digits, filled up with zeros. -/
def extended (count : Nat) (ds : List Char) : List Char :=
  ds ++ List.replicate (count - ds.length) '0'

/-- One digit before the point, and an exponent of at least two digits. -/
def withExponent (ds : List Char) (exponent : Int) : List Char :=
  let e := Nat.toDigits 10 exponent.toNat
  ds.take 1 ++ c.fraction (ds.drop 1) ++ ['e', '+'] ++ List.replicate (2 - e.length) '0' ++ e

def scientific (n : Nat) : List Char :=
  let count := c.precision.getD 6 + 1
  let d := significant count n
  c.withExponent (extended count d.digits) d.exponent

/-- Significant digits, without the zeros at the end unless flagged; in positional form if they
reach the point. -/
def general (n : Nat) : List Char :=
  let count := max 1 (c.precision.getD 6)
  let d := significant count n
  let ds := if c.has '#' then extended count d.digits else d.digits
  if d.exponent < count then
    let whole := d.exponent.toNat + 1
    extended whole (ds.take whole) ++ c.fraction (ds.drop whole)
  else c.withExponent ds d.exponent

/-- The text of a number in floating point: it is the nearest double that is laid out. -/
def layDouble? (n : Int) (digits : Nat → List Char) : Option (List Char) :=
  (Binary.nearestDouble? n.natAbs).map fun d => c.layNumber n "" (digits d)

/-- Widths and precisions may not be greater. -/
def limit : Nat := 0x7fffffff

/-- The text of a value; none if the kind of conversion does not fit it. -/
def render? (v : Value) : Option (List Char) :=
  if c.width > limit || c.precision.any (· > limit) then none
  else match v with
    | .text s =>
      match c.kind with
      | 's' => some (c.layText s)
      | 'r' => some (c.layText (Text.quoted s))
      | 'a' => some (c.layText (Text.quotedAscii s))
      | 'c' => if s.length = 1 then some (c.pad false [] s.toList) else none
      | _ => none
    | .number n =>
      let m := n.natAbs
      match c.kind with
      | 's' | 'r' | 'a' => some (c.layText (toString n))
      | 'd' | 'i' | 'u' => some (c.layNumber n "" (c.whole 10 m))
      | 'o' => some (c.layNumber n "0o" (c.whole 8 m))
      | 'x' => some (c.layNumber n "0x" (c.whole 16 m))
      | 'X' => some (c.layNumber n "0X" ((c.whole 16 m).map Char.toUpper))
      | 'f' | 'F' => c.layDouble? n c.fixed
      | 'e' => c.layDouble? n c.scientific
      | 'E' => c.layDouble? n fun d => (c.scientific d).map Char.toUpper
      | 'g' => c.layDouble? n c.general
      | 'G' => c.layDouble? n fun d => (c.general d).map Char.toUpper
      | 'c' => if 0 ≤ n && n < 0x110000 then some (c.pad false [] [Char.ofNat m]) else none
      | _ => none

end Conversion
end Descent.Log
