import Descent.Text.Printable

/-! Texts in quotation marks, with escapes for what would not show. -/
namespace Descent.Text

private def hex (width n : Nat) : List Char :=
  let ds := Nat.toDigits 16 n
  List.replicate (width - ds.length) '0' ++ ds

/-- A character as the shortest of the escapes with two, four or eight hexadecimal digits. -/
def codeEscape (c : Char) : List Char :=
  if c.toNat < 0x100 then '\\' :: 'x' :: hex 2 c.toNat
  else if c.toNat < 0x10000 then '\\' :: 'u' :: hex 4 c.toNat
  else '\\' :: 'U' :: hex 8 c.toNat

/-- A character inside the quotation mark `q`. -/
def escape (q c : Char) : List Char :=
  if c = q || c = '\\' then ['\\', c]
  else if c = '\n' then ['\\', 'n']
  else if c = '\r' then ['\\', 'r']
  else if c = '\t' then ['\\', 't']
  else if isPrintable c then [c]
  else codeEscape c

/-- Single marks, unless the text holds a single mark and no double one. -/
def quoteMark (s : String) : Char := if s.contains '\'' && !s.contains '"' then '"' else '\''

def quoted (s : String) : String :=
  let q := quoteMark s
  String.ofList (q :: s.toList.flatMap (escape q) ++ [q])

/-- As `quoted`, with an escape for every character beyond ASCII. -/
def quotedAscii (s : String) : String :=
  String.ofList ((quoted s).toList.flatMap fun c => if c.toNat < 0x80 then [c] else codeEscape c)

/-- Quoted texts in the given brackets. -/
def quotedList (open_ close : String) (ss : List String) : String :=
  open_ ++ ", ".intercalate (ss.map quoted) ++ close

end Descent.Text
