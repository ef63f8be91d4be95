import Switchboard.Link.Memory
import Switchboard.Link.Rehearsed
import Switchboard.Link.Web

/-!
# Networks

Numbered connections of several kinds, and the carrier that sends over them.
-/

namespace Switchboard

inductive Connection where
  | memory (link : MemoryLink)
  | web (link : WebLink)
  | rehearsed (link : RehearsedLink)
deriving DecidableEq, Repr

namespace Connection

def send (c : Connection) (s : Side) (data : Bytes) : Except Failure UInt32 × Connection :=
  match c with
  | memory l =>
    let r := l.send s data
    (r.1, memory r.2)
  | web l =>
    let r := l.send s data
    (r.1, web r.2)
  | rehearsed l =>
    let r := l.send data
    (r.1, rehearsed r.2)

def close (c : Connection) (s : Side) : Connection :=
  match c with
  | memory l => memory l.close
  | web l => web (l.close s)
  | rehearsed l => rehearsed l

def take (c : Connection) (s : Side) : Option Event × Connection :=
  match c with
  | memory l =>
    let r := l.take s
    (r.1, memory r.2)
  | web l =>
    let r := l.take s
    (r.1, web r.2)
  | rehearsed l => (none, rehearsed l)

def takeAll (c : Connection) (s : Side) : Option (List Event) × Connection :=
  match c with
  | memory l =>
    let r := l.takeAll s
    (r.1, memory r.2)
  | web l =>
    let r := l.takeAll s
    (r.1, web r.2)
  | rehearsed l =>
    let r := l.takeAll
    (some (r.1.map fun m => .received m.1 m.2), rehearsed r.2)

def drop (c : Connection) (s : Side) : Connection :=
  match c with
  | memory l => memory (l.drop s)
  | web l => web (l.drop s)
  | rehearsed l => rehearsed l

def advance? : Connection → Option Connection
  | web l =>
    (l.passOn? .near <|> l.passOn? .far <|> l.read? .near <|> l.read? .far).map web
  | memory _ | rehearsed _ => none

end Connection

structure Network where
  connections : List Connection
deriving DecidableEq, Repr

namespace Network

def empty : Network := ⟨[]⟩

def add (n : Network) (c : Connection) : Nat × Network :=
  (n.connections.length, ⟨n.connections ++ [c]⟩)

def get? (n : Network) (i : Nat) : Option Connection := n.connections[i]?

def modify (n : Network) (i : Nat) (f : Connection → Connection) : Network :=
  ⟨n.connections.modify i f⟩

/-- Sends go to the connection that the endpoint is a side of. -/
def carrier : Carrier Network where
  send n e data :=
    match n.get? e.connection with
    | none => (.error (.sendFailure "channel closed"), n)
    | some c =>
      let r := c.send e.side data
      (r.1, n.modify e.connection fun _ => r.2)

def close (n : Network) (e : Endpoint) : Network := n.modify e.connection (·.close e.side)

def drop (n : Network) (e : Endpoint) : Network := n.modify e.connection (·.drop e.side)

def take (n : Network) (e : Endpoint) : Option Event × Network :=
  match n.get? e.connection with
  | none => (none, n)
  | some c =>
    let r := c.take e.side
    (r.1, n.modify e.connection fun _ => r.2)

def takeAll (n : Network) (e : Endpoint) : Option (List Event) × Network :=
  match n.get? e.connection with
  | none => (none, n)
  | some c =>
    let r := c.takeAll e.side
    (r.1, n.modify e.connection fun _ => r.2)

end Network

end Switchboard
