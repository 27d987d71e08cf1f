import Descent.Log.Template

/-! The loggers of the library: one level for all of them, and one handler each. -/
namespace Descent.Log

/-- Where lines go: to the standard error stream, unless a stream is named. -/
abbrev Stream := Option String

structure Handler where
  level : Int
  template : Template
  stream : Stream

structure Logger where
  name : String
  level : Int
  handlers : List Handler
  propagate : Bool

/-- The loggers in order of creation, the level of new ones, and the lines written so far. -/
structure Registry where
  loggers : List Logger
  default : Constant
  written : List (Stream × String)

/-- The package name, which every logger's name starts with. -/
def package : String := "cgopt"

/-- The full name: no name means the package, and any other name is put below it. -/
def fullName : Option String → String
  | none => package
  | some s => if s = package || s.startsWith (package ++ ".") then s else package ++ "." ++ s

/-- The level of loggers outside the library. -/
def rootLevel : Int := warning

/-- Changes the things of a list in turn, up to the first that fails: those before it stay changed,
and so does what that one has done. -/
def changeAll {α : Type} (f : α → α × Except Fault Unit) : List α → List α × Except Fault Unit
  | [] => ([], .ok ())
  | a :: as =>
    match f a with
    | (a, .error e) => (a :: as, .error e)
    | (a, .ok ()) =>
      let (as, outcome) := changeAll f as
      (a :: as, outcome)

def Handler.setLevel (c : Constant) (h : Handler) : Handler × Except Fault Unit :=
  match c.level with
  | .error e => (h, .error e)
  | .ok level => ({ h with level }, .ok ())

namespace Logger

/-- A new logger, with a handler of its own. -/
def create (name : String) (c : Constant) : Except Fault Logger := do
  let level ← c.level
  return ⟨name, level, [⟨level, .standard, none⟩], false⟩

/-- Gives the logger a level, and then its handlers. -/
def setLevel (c : Constant) (l : Logger) : Logger × Except Fault Unit :=
  match c.level with
  | .error e => (l, .error e)
  | .ok level =>
    let (handlers, outcome) := changeAll (Handler.setLevel c) l.handlers
    ({ l with level, handlers }, outcome)

/-- Gives the logger a level, and then one new handler in the place of those it has. -/
def configure (c : Constant) (template : Template) (stream : Stream) (l : Logger) :
    Logger × Except Fault Unit :=
  match c.level with
  | .error e => (l, .error e)
  | .ok level => ({ l with level, handlers := [⟨level, template, stream⟩] }, .ok ())

end Logger

namespace Registry

def find? (r : Registry) (name : String) : Option Logger := r.loggers.find? (·.name == name)

/-- The logger of that name, created if need be. It is known by its place in the order of
creation. -/
def get (r : Registry) (name : Option String) : Registry × Except Fault Nat :=
  let name := fullName name
  match r.loggers.findIdx? (·.name == name) with
  | some i => (r, .ok i)
  | none =>
    match Logger.create name r.default with
    | .error e => (r, .error e)
    | .ok l => ({ r with loggers := r.loggers ++ [l] }, .ok r.loggers.length)

/-- The loggers that the library creates for itself. -/
def initial : Registry :=
  let empty : Registry := ⟨[], .number warning, []⟩
  let (r, _) := empty.get (some "cgopt.optimize.line_search")
  (r.get (some "cgopt.optimize.conjgrad")).1

/-- Changes all loggers in turn, and then the level of those to come. -/
def change (r : Registry) (c : Constant) (f : Logger → Logger × Except Fault Unit) :
    Registry × Except Fault Unit :=
  match changeAll f r.loggers with
  | (loggers, .error e) => ({ r with loggers }, .error e)
  | (loggers, .ok ()) => ({ r with loggers, default := c }, .ok ())

/-- Gives all loggers, and those to come, one level. -/
def setLevel (r : Registry) (spec : LevelSpec) : Registry × Except Fault Unit :=
  r.change spec.constant (Logger.setLevel spec.constant)

/-- Gives all loggers one new handler, and them and those to come one level. The template is checked
before the level. -/
def configure (r : Registry) (spec : LevelSpec) (template : Option String) (stream : Stream) :
    Registry × Except Fault Unit :=
  match Template.ofRequest template with
  | .error e => (r, .error e)
  | .ok t => r.change spec.constant (Logger.configure spec.constant t stream)

/-- The names above a dotted name that is read from its end, nearest first. A dot at the end of one
of them does not count again. -/
def above : List Char → List String
  | [] => []
  | '.' :: c :: cs => String.ofList (c :: cs).reverse :: above cs
  | _ :: cs => above cs

def ancestors (name : String) : List String := above name.toList.reverse

/-- The first level that is not zero, of the logger and those above it. -/
def effectiveLevel (r : Registry) (l : Logger) : Int :=
  let levels := l.level :: (ancestors l.name).filterMap fun a => (r.find? a).map (·.level)
  (levels.find? (· != 0)).getD rootLevel

/-- Logs a record through a logger: every handler whose level it reaches writes a line. -/
def emit (r : Registry) (l : Logger) (rec : Record) : Registry :=
  if 0 < rec.level && rec.level ≥ r.effectiveLevel l then
    let lines := l.handlers.filterMap fun h =>
      if rec.level ≥ h.level then (h.template.render? rec).map (h.stream, ·) else none
    { r with written := r.written ++ lines }
  else r

/-- Logs a message under a name, with nothing else known of it. -/
def log (r : Registry) (name : Option String) (level : Int) (message : String) : Registry :=
  let (r, found) := r.get name
  match found.toOption.bind (r.loggers[·]?) with
  | none => r
  | some l => r.emit l ⟨l.name, level, message, fun _ _ => none⟩

/-- Logs a message at a level that has to be a number. The logger is created in any case. -/
def logAt (r : Registry) (name : Option String) (spec : LevelSpec) (message : String) :
    Registry × Except Fault Unit :=
  match spec with
  | .number level => (r.log name level message, .ok ())
  | .name _ => ((r.get name).1, .error .levelNotNumber)

end Registry

/-- What may be asked of the loggers. -/
inductive Request where
  | get (name : Option String)
  | setLevel (spec : LevelSpec)
  | configure (spec : LevelSpec) (template : Option String) (stream : Stream)

namespace Registry

/-- Answers a request, with a logger if one was asked for. -/
def serve (r : Registry) : Request → Registry × Except Fault (Option Nat)
  | .get name =>
    let (r, found) := r.get name
    (r, found.map some)
  | .setLevel spec =>
    let (r, outcome) := r.setLevel spec
    (r, outcome.map fun _ => none)
  | .configure spec template stream =>
    let (r, outcome) := r.configure spec template stream
    (r, outcome.map fun _ => none)

/-- The registry after requests in turn, whatever their outcomes. -/
def after (r : Registry) (requests : List Request) : Registry :=
  requests.foldl (fun r q => (r.serve q).1) r

end Registry
end Descent.Log
