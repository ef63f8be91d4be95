import Switchboard.Decimal.Reader
import Switchboard.Settings.Choice
import Switchboard.Text.Blank

/-!
# Settings from a document

Scalars are converted to what a setting wants: texts are read as numbers, truth values count as one
and zero, fractions are rounded, and any scalar will do for a text. What is missing or null has its
default.
-/

namespace Switchboard.Settings

def text? (d : Document) : Option String :=
  match d with
  | .text s => some s
  | .boolean b => some (toString b)
  | .integer n => some (toString n)
  | .decimal x => some (positionalText x)
  | .null | .list _ | .table _ => none

/-- A whole number that is not negative. A fraction is rounded, a half away from zero, and is cut
off at the ends of the 64-bit range. -/
def natural? (d : Document) : Option Nat :=
  match d with
  | .integer n => if 0 ≤ n then some n.toNat else none
  | .boolean b => some b.toNat
  | .decimal x => some x.round.toUInt64.toNat
  | .text s =>
    let word := lower s
    if word = "true" || word = "on" || word = "yes" then some 1
    else if word = "false" || word = "off" || word = "no" then some 0
    else (readNatural? s.toList).filter (· < UInt64.size)
  | .null | .list _ | .table _ => none

def below? (bound : Nat) (d : Document) : Option Nat := (natural? d).filter (· < bound)

def texts? : Document → Option (List String)
  | .list items => items.mapM text?
  | _ => none

/-- What is missing or null has a default. -/
def optional {α : Type} (decode : Document → Option α) (default : α) : Option Document → Option α
  | none | some .null => some default
  | some d => decode d

/-- The fields of a section: those of a table by name, those of a list by position. A list has to
have them all. -/
def sectionFields? (names : List String) : Document → Option (String → Option Document)
  | .table fields => some (Document.fieldOf? fields)
  | .list items =>
    if items.length < names.length then none
    else some fun name => (Document.fieldOf? (names.zip items) name)
  | _ => none

def server? (d : Document) : Option ServerSettings := do
  let field ← sectionFields? ["host", "port"] d
  let default : ServerSettings := {}
  some {
    host := ← optional text? default.host (field "host")
    port := ← optional (below? UInt16.size) default.port (field "port") }

def broker? (d : Document) : Option BrokerSettings := do
  let field ← sectionFields? ["mode", "fanout_max_attempts", "commands"] d
  let default : BrokerSettings := {}
  some {
    mode := ← optional Choice.dispatchMode.ofSetting? default.mode (field "mode")
    maxAttempts := ← optional (below? UInt32.size) default.maxAttempts (field "fanout_max_attempts")
    commands := ← optional texts? default.commands (field "commands") }

def producer? (d : Document) : Option ProducerSettings := do
  let field ← sectionFields? ["answer_mode", "request_timeout_ms", "sweep_interval_ms"] d
  let default : ProducerSettings := {}
  some {
    answerMode := ← optional Choice.answerMode.ofSetting? default.answerMode (field "answer_mode")
    requestTimeout :=
      ← optional (below? UInt64.size) default.requestTimeout (field "request_timeout_ms")
    sweepInterval := ← optional (below? UInt64.size) default.sweepInterval (field "sweep_interval_ms") }

def log? (d : Document) : Option LogSettings := do
  let field ← sectionFields? ["level"] d
  let default : LogSettings := {}
  some { level := ← optional text? default.level (field "level") }

def decode? (d : Document) : Option Settings := do
  some {
    server := ← optional server? {} (d.field? "server")
    broker := ← optional broker? {} (d.field? "broker")
    producer := ← optional producer? {} (d.field? "producer")
    log := ← optional log? {} (d.field? "log") }

end Switchboard.Settings
