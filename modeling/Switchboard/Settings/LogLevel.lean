import Switchboard.Text.Blank

/-!
# Log levels
-/

namespace Switchboard

inductive LogLevel where
  | off
  | error
  | warn
  | info
  | debug
  | trace
deriving DecidableEq, Repr

namespace LogLevel

def name : LogLevel → String
  | off => "off"
  | error => "error"
  | warn => "warn"
  | info => "info"
  | debug => "debug"
  | trace => "trace"

/-- The level that a text names, regardless of case and of blanks around it. Any other text stands
for `info`. -/
def ofText (s : String) : LogLevel :=
  let word := lower (.ofList (trimBlanks s.toList))
  if word = "off" || word = "none" then off
  else if word = "error" then error
  else if word = "warn" || word = "warning" then warn
  else if word = "debug" then debug
  else if word = "trace" then trace
  else info

end LogLevel

end Switchboard
