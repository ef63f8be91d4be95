import Switchboard.Failure
import Switchboard.Text.Fields
import Switchboard.Text.Utf8

/-!
# Commands

A command is UTF-8 text whose fields are joined by `/`: a name that is not empty, then positional
parameters.
-/

namespace Switchboard

structure Command where
  name : String
  params : List String
deriving DecidableEq, Repr

namespace Command

def separator : Char := '/'

def ofBytes (data : Bytes) : Except Failure Command :=
  match Utf8.decode data with
  | .error m => .error (.invalidCommand s!"not utf-8: {m.message}")
  | .ok text =>
    let fields := Fields.split separator text
    if fields.1.isEmpty then .error (.invalidCommand "empty command name")
    else .ok ⟨.ofList fields.1, fields.2.map .ofList⟩

def toText (c : Command) : String :=
  .ofList (Fields.join separator c.name.toList (c.params.map String.toList))

end Command

/-! ## Control messages -/

/-- What a consumer asks of the broker: to be sent the requests of a command, or not any more. -/
inductive Control where
  | subscribe (command : String)
  | unsubscribe (command : String)
deriving DecidableEq, Repr

namespace Control

def word : Control → String
  | subscribe _ => "subscribe"
  | unsubscribe _ => "unsubscribe"

def target : Control → String
  | subscribe command | unsubscribe command => command

def toText (c : Control) : String := c.word ++ "/" ++ c.target

def toBytes (c : Control) : Bytes := Switchboard.toBytes c.toText

/-- Recognize a control message. Parameters after the target are ignored. -/
def ofBytes? (data : Bytes) : Option Control :=
  match Command.ofBytes data with
  | .ok ⟨name, command :: _⟩ =>
    if command.isEmpty then none
    else if name = "subscribe" then some (.subscribe command)
    else if name = "unsubscribe" then some (.unsubscribe command)
    else none
  | _ => none

end Control

end Switchboard
