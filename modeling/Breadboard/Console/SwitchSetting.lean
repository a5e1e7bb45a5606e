import Breadboard.Text.Blank
import Breadboard.Text.Lines

/-!
# Switch settings

The setting of a switch as it is given on a command line: `NAME=0` or `NAME=1`, with blanks
allowed around both sides.
-/
namespace Breadboard.Console

structure SwitchSetting where
  name : String
  closed : Bool
  deriving DecidableEq, Repr

/-- Why a text is no switch setting. -/
inductive SettingError where
  | noEqualsSign (text : String)
  | noLevel (value : String)
  deriving DecidableEq, Repr

def SettingError.message : SettingError → String
  | noEqualsSign text => s!"expected NAME=0 or NAME=1, found '{text}'"
  | noLevel value => s!"switch value must be 0 or 1, found '{value}'"

namespace SwitchSetting

def level? (value : String) : Option Bool :=
  if value = "0" then some false
  else if value = "1" then some true
  else none

/-- Reads a setting. The name ends at the first equals sign. -/
def ofText (text : String) : Except SettingError SwitchSetting :=
  match Text.cutAt? '=' text with
  | none => .error (.noEqualsSign text)
  | some (name, value) =>
    match level? (Text.trim value) with
    | some closed => .ok ⟨Text.trim name, closed⟩
    | none => .error (.noLevel (Text.trim value))

end SwitchSetting

end Breadboard.Console
