import Descent.Text.Quoted

/-! Severity levels: their names and how a name is looked up. -/
namespace Descent.Log

/-- What makes a request to the log fail. -/
inductive Fault where
  | unknownLevel (text : String)
  /-- A level that is neither a number nor a text. -/
  | invalidLevel (text : String)
  | invalidTemplate (text : String)
  /-- Loggers and handlers take levels by name, messages do not. -/
  | levelNotNumber

def Fault.message : Fault → String
  | unknownLevel t => "Unknown level: " ++ Text.quoted t
  | invalidLevel t => "Level not an integer or a valid string: " ++ t
  | invalidTemplate t => "Invalid format '" ++ t ++ "' for '%' style"
  | levelNotNumber => "level must be an integer"

/-- A level as it is asked for. -/
inductive LevelSpec where
  | number (n : Int)
  | name (s : String)

def warning : Int := 30

def named : List (String × Int) := [
  ("CRITICAL", 50), ("FATAL", 50), ("ERROR", 40), ("WARNING", warning), ("WARN", warning),
  ("INFO", 20), ("DEBUG", 10), ("NOTSET", 0)]

def levelName (n : Int) : String := ((named.find? (·.2 == n)).map (·.1)).getD s!"Level {n}"

/-- What a name may stand for: most names that are found are those of levels. -/
inductive Constant where
  | number (n : Int)
  | text (s : String)
  /-- A table, by the text that shows it. -/
  | table (shown : String)
deriving DecidableEq

/-- The basic format has a name like a level, but is none. -/
def basicFormat : String := "%(levelname)s:%(name)s:%(message)s"

/-- So has the table of the styles of templates. -/
def styles : String :=
  "\x7b'%': (<class 'logging.PercentStyle'>, '%(levelname)s:%(name)s:%(message)s'), " ++
  "'\x7b': (<class 'logging.StrFormatStyle'>, '\x7blevelname\x7d:\x7bname\x7d:\x7bmessage\x7d'), " ++
  "'$': (<class 'logging.StringTemplateStyle'>, '$\x7blevelname\x7d:$\x7bname\x7d:$\x7bmessage\x7d')\x7d"

def constants : List (String × Constant) :=
  named.map (fun (s, n) => (s, .number n)) ++
    [("BASIC_FORMAT", .text basicFormat), ("_STYLES", .table styles)]

/-- Upper case of the letters that occur in these names; some of them have further forms in lower
case, and two have one together. -/
def upper (c : Char) : List Char :=
  if c = '\u0131' then ['I'] else if c = '\u017f' then ['S']
  else if c = '\ufb05' || c = '\ufb06' then ['S', 'T'] else [c.toUpper]

/-- A name stands for its constant in any case of letters, an unknown one for a warning. -/
def LevelSpec.constant : LevelSpec → Constant
  | number n => .number n
  | name s => (constants.lookup (String.ofList (s.toList.flatMap upper))).getD (.number warning)

/-- The level that a logger or a handler accepts: a number, or the name of a level. -/
def Constant.level : Constant → Except Fault Int
  | number n => .ok n
  | text s =>
    match named.lookup s with
    | some n => .ok n
    | none => .error (.unknownLevel s)
  | table shown => .error (.invalidLevel shown)

end Descent.Log
