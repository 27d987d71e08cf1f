import Descent.Log.Conversion
import Descent.Log.Level
import Descent.Text.Alphanumeric

/-! Templates of log lines: text with fields such as `%(message)-9.3s`. -/
namespace Descent.Log

/-- A message to be logged. What else is known of it, such as the time, is given by its layout under
each key. -/
structure Record where
  name : String
  level : Int
  message : String
  others : String → Conversion → Option (List Char)

def Record.field? (r : Record) : String → Option Value
  | "message" => some (.text r.message)
  | "name" => some (.text r.name)
  | "levelname" => some (.text (levelName r.level))
  | "levelno" => some (.number r.level)
  | _ => none

/-- The text of a field; none if there is no such field, or if the conversion does not fit it. -/
def Record.layField? (r : Record) (key : String) (c : Conversion) : Option (List Char) :=
  match r.field? key with
  | some value => c.render? value
  | none => r.others key c

def isFlag (c : Char) : Bool := ['#', '0', '+', ' ', '-'].contains c

/-- Kinds of conversions, in either case of letters; `i` and `s` have further forms beyond ASCII. -/
def isKind (c : Char) : Bool :=
  ("diouxefgcrsa%".toList ++ ['\u0130', '\u0131', '\u017f']).contains c.toLower

/-- Letters, digits and underscores, which make up the key of a field. -/
def isWord (c : Char) : Bool := Text.isAlphanumeric c || c == '_'

/-- The number written at the front, if there is a digit, and what follows it. -/
def readNumber (cs : List Char) : Option Nat × List Char :=
  let (ds, rest) := cs.span Char.isDigit
  (if ds.isEmpty then none else some (ds.foldl (fun n d => 10 * n + (d.toNat - 48)) 0), rest)

/-- The precision after a point, zero if no digit follows it, and what comes then. -/
def readPrecision : List Char → Option Nat × List Char
  | '.' :: cs =>
    let (p, rest) := readNumber cs
    (some (p.getD 0), rest)
  | cs => (none, cs)

/-- A letter for the size of a number means nothing. -/
def dropSize : List Char → List Char
  | 'h' :: cs | 'l' :: cs | 'L' :: cs => cs
  | cs => cs

/-- The conversion at the front, and what follows it. -/
def Conversion.read? (cs : List Char) : Option (Conversion × List Char) :=
  let (flags, cs) := cs.span isFlag
  let (width, cs) := readNumber cs
  let (precision, cs) := readPrecision cs
  match dropSize cs with
  | kind :: rest => some (⟨flags, width.getD 0, precision, kind⟩, rest)
  | [] => none

/-- Is there a field at the front, with a word as its key? Its width and precision may be in the
digits of any script, or left open by a star. -/
def startsField : List Char → Bool
  | '%' :: '(' :: cs =>
    let (key, cs) := cs.span isWord
    match cs with
    | ')' :: cs => !key.isEmpty && (afterPrecision (afterNumber (cs.dropWhile isFlag))).head?.any isKind
    | _ => false
  | _ => false
where
  afterNumber : List Char → List Char
    | '*' :: cs => cs
    | cs => cs.dropWhile Text.isDecimal
  afterPrecision : List Char → List Char
    | '.' :: cs =>
      if cs.head?.any fun c => c == '*' || Text.isDecimal c then afterNumber cs else '.' :: cs
    | cs => cs

def hasField : List Char → Bool
  | [] => false
  | c :: cs => startsField (c :: cs) || hasField cs

/-- The text of a record; none if the template holds a percent sign that is not doubled and starts
no field, or a field that does not fit. The budget bounds the number of pieces. -/
def fill (r : Record) : Nat → List Char → Option (List Char)
  | _, [] => some []
  | 0, _ :: _ => none
  | budget + 1, '%' :: '%' :: cs => return '%' :: (← fill r budget cs)
  | budget + 1, '%' :: '(' :: cs => do
    let (key, cs) := cs.span (· != ')')
    let (c, rest) ← Conversion.read? (cs.drop 1)
    return (← r.layField? (String.ofList key) c) ++ (← fill r budget rest)
  | _ + 1, '%' :: _ => none
  | budget + 1, c :: cs => return c :: (← fill r budget cs)

/-- A template is a text with at least one field. -/
structure Template where
  text : String
  hasField : hasField text.toList = true

def Template.ofString (s : String) : Except Fault Template :=
  if h : Log.hasField s.toList = true then .ok ⟨s, h⟩ else .error (.invalidTemplate s)

def Template.standard : Template := ⟨"[%(levelname)s] %(name)s: %(message)s", by decide +kernel⟩

/-- The template that is asked for; none and an empty one mean the standard. -/
def Template.ofRequest : Option String → Except Fault Template
  | none | some "" => .ok .standard
  | some s => Template.ofString s

def Template.render? (t : Template) (r : Record) : Option String :=
  (fill r t.text.length t.text.toList).map String.ofList

end Descent.Log
