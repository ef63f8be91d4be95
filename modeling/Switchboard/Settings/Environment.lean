import Switchboard.Decimal.Reader
import Switchboard.Document.Basic
import Switchboard.Text.Blank
import Switchboard.Text.Fields

/-!
# Settings from the environment

A variable such as `DISPATCHQ__BROKER__MODE` names a setting. Case does not matter, and two
underscores part the names of the path.
-/

namespace Switchboard.Settings

def variableStart : List Char := "dispatchq__".toList

def pointed : List Char → List Char
  | '_' :: '_' :: rest => '.' :: pointed rest
  | c :: rest => c :: pointed rest
  | [] => []

/-- The key of the setting that a variable names. -/
def variableKey? (name : String) : Option String :=
  let cs := (lower name).toList
  if variableStart.isPrefixOf cs then some (.ofList (pointed (cs.drop variableStart.length)))
  else none

/-- The setting whose text is a list with commas. -/
def listKey : String := "broker.commands"

/-- The value of a variable: a truth value, an integer, a floating point number, and else a text,
or a list of texts where a list is wanted. -/
def variableValue (key value : String) : Document :=
  let word := lower value
  if word = "true" then .boolean true
  else if word = "false" then .boolean false
  else
    let integer := (readInteger? value.toList).filter fitsSigned
    match integer, readFloat? value.toList with
    | some n, _ => .integer n
    | none, some x => .decimal x
    | none, none =>
      if key = listKey then
        let fields := Fields.split ',' value.toList
        .list ((fields.1 :: fields.2).map fun f => .text (.ofList f))
      else .text value

end Switchboard.Settings
