/-! The version of the library, its debug mode, and contexts that change the mode for a while. -/
namespace Descent

def version : String := "0.1.0"

/-- The flag, and the flags that open contexts will restore, oldest first. -/
structure DebugMode where
  enabled : Bool
  saved : List Bool

namespace DebugMode

/-- The words that switch the mode on from outside, in any case. -/
def words : List String := ["1", "true", "yes", "on"]

/-- The mode set from outside; open contexts stay. -/
def restart (value : Option String) (m : DebugMode) : DebugMode :=
  { m with enabled := words.contains ((value.getD "0").map Char.toLower) }

def initial : DebugMode := ⟨false, []⟩

def set (enabled : Bool) (m : DebugMode) : DebugMode := { m with enabled }

/-- Opens a context. -/
def enter (enabled : Bool) (m : DebugMode) : DebugMode := ⟨enabled, m.saved ++ [m.enabled]⟩

/-- Closes the context at that position, which need not be the last one opened: the flag it saved is
restored. -/
def leave (k : Nat) (m : DebugMode) : DebugMode :=
  match m.saved[k]? with
  | some b => ⟨b, m.saved.eraseIdx k⟩
  | none => m

/-- Closes the context opened last. -/
def leaveLast (m : DebugMode) : DebugMode := m.leave (m.saved.length - 1)

theorem leaveLast_enter (enabled : Bool) (m : DebugMode) : (m.enter enabled).leaveLast = m := by
  simp [leaveLast, enter, leave, List.eraseIdx_append_of_length_le]

end DebugMode
end Descent
