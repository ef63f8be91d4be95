import Switchboard.Decimal.Shortest
import Switchboard.Document.Basic
import Switchboard.Settings.Basic
import Switchboard.Text.Quoted

/-!
# Named choices

Settings that are one of a few names, and what is said of a document that is not such a name.
-/

namespace Switchboard

/-- The names of the values of a type. -/
structure Choice (α : Type) where
  options : List (String × α)

namespace Choice

variable {α : Type}

def dispatchMode : Choice DispatchMode := ⟨[("direct", .direct), ("command", .command)]⟩

def answerMode : Choice AnswerMode := ⟨[("single", .single), ("multiple", .multiple)]⟩

def named? (c : Choice α) (name : String) : Option α :=
  (c.options.find? fun o => o.1 = name).map Prod.snd

/-- The value that a setting stands for: its name, or a table whose one key is the name. -/
def ofSetting? (c : Choice α) : Document → Option α
  | .text name => c.named? name
  | .table [(name, _)] => c.named? name
  | _ => none

/-! ## Strict reading -/

def kindText : Document → String
  | .null => "null"
  | .boolean b => s!"boolean `{b}`"
  | .integer n => s!"integer `{n}`"
  | .decimal x => s!"floating point `{pointedText x}`"
  | .text s => "string " ++ quotedText s
  | .list _ => "sequence"
  | .table _ => "map"

def unknownMessage (c : Choice α) (name : String) : String :=
  let names := c.options.map fun o => s!"`{o.1}`"
  s!"unknown variant `{name}`, expected " ++ " or ".intercalate names

/-- Read a choice: its name, or a map whose one key is the name and whose value is null. Anything
else is refused with a message. -/
def read (c : Choice α) (d : Document) : Except String α :=
  let byName (name : String) : Except String α :=
    match c.named? name with
    | some a => .ok a
    | none => .error (c.unknownMessage name)
  match d with
  | .text name => byName name
  | .table [(name, content)] =>
    match byName name, content with
    | .error m, _ => .error m
    | .ok a, .null => .ok a
    | .ok _, other => .error s!"invalid type: {kindText other}, expected unit"
  | .table _ => .error "invalid value: map, expected map with a single key"
  | other => .error s!"invalid type: {kindText other}, expected string or map"

end Choice

end Switchboard
