import Switchboard.Document.Json
import Switchboard.Document.Path
import Switchboard.Document.Toml.Reader
import Switchboard.Settings.Decode
import Switchboard.Settings.Environment
import Switchboard.Text.Utf8

/-!
# Loading settings

The settings of a file, if there is one, with those of the environment laid over them.
-/

namespace Switchboard.Settings

inductive FileFormat where
  | toml
  | json
deriving DecidableEq, Repr

/-- The format that a file name's extension stands for. -/
def FileFormat.ofExtension? (extension : String) : Option FileFormat :=
  if extension = "toml" then some .toml
  else if extension = "json" then some .json
  else none

/-- The text of a file, without a byte order mark. -/
def fileText : Bytes → List Char
  | 0xEF :: 0xBB :: 0xBF :: rest => Utf8.decodeLossy rest
  | bytes => Utf8.decodeLossy bytes

def fileFields? (format : FileFormat) (bytes : Bytes) : Option (List (String × Document)) :=
  let document := match format with
    | .toml => Toml.read? (fileText bytes)
    | .json => Json.read? (fileText bytes)
  match document with
  | some (.table fields) => some fields
  | _ => none

/-- Lay settings over a document, each at the path that its key stands for. -/
def layAll (d : Document) (settings : List (String × Document)) : Document :=
  settings.foldl (fun d s => (Path.ofKey s.1).lay d s.2) d

def load? (file : Option (FileFormat × Bytes)) (environment : List (String × String)) :
    Option Settings := do
  let fields ← match file with
    | none => some []
    | some (format, bytes) => fileFields? format bytes
  let named := environment.filterMap fun v =>
    (variableKey? v.1).map fun key => (key, variableValue key v.2)
  decode? (layAll (layAll (.table []) fields) named)

end Switchboard.Settings
