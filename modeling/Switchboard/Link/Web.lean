import Switchboard.Endpoint
import Switchboard.Packet

/-!
# WebSocket links

Each side numbers its sends and puts every payload into a binary frame, as a packet under that
number. Frames wait in the sender's outbox until they are passed on, and arrive in order. A binary
frame that holds a packet is a datagram; a close frame ends the connection, as does a hang-up; every
other frame is ignored. A connection is opened over a route, which may lead nowhere.
-/

namespace Switchboard

/-- How a host's network leads to a server. -/
inductive Route where
  | available
  | unreachable
deriving DecidableEq, Repr

/-- Why no connection can be opened over a route. -/
def Route.obstacle? : Route → Option Failure
  | available => none
  | unreachable => some (.connection "IO error: Network is unreachable (os error 101)")

inductive Frame where
  | binary (data : Bytes)
  | text (data : Bytes)
  | ping (data : Bytes)
  | pong (data : Bytes)
  | close
deriving DecidableEq, Repr

def Frame.event? : Frame → Option Event
  | .binary data =>
    match Packet.decode data with
    | .ok p => some (.received p.id p.payload)
    | .error _ => none
  | _ => none

structure WebSide where
  /-- What the endpoint of this side calls its peer. -/
  peer : Address
  nextId : UInt32
  closed : Bool
  /-- Frames not yet passed on, until the sender has ended. -/
  outbox : Option (List Frame)
  arrived : List Frame
  reading : Bool
  /-- The events that wait to be taken, unless the stream was dropped. -/
  inbox : Option (List Event)
deriving DecidableEq, Repr

structure WebLink where
  near : WebSide
  far : WebSide
  /-- The connection is down: nothing more gets through. -/
  severed : Bool
deriving DecidableEq, Repr

namespace WebSide

def fresh (peer : Address) : WebSide := ⟨peer, 1, false, some [], [], true, some [.connected]⟩

def push (s : WebSide) (e : Event) : WebSide := { s with inbox := s.inbox.map (· ++ [e]) }

/-- Give a datagram to the endpoint of this side. It is accepted as long as the sender has not
ended. -/
def send (s : WebSide) (data : Bytes) : Except Failure UInt32 × WebSide :=
  if s.closed then (.error (.sendFailure s!"{s.peer} closed"), s)
  else
    let frame := Frame.binary (Packet.encode ⟨s.nextId, data⟩)
    match s.outbox with
    | none => (.error (.sendFailure "channel closed"), { s with nextId := s.nextId + 1 })
    | some frames =>
      (.ok s.nextId, { s with nextId := s.nextId + 1, outbox := some (frames ++ [frame]) })

/-- Close the endpoint of this side. Only the first close has an effect. -/
def close (s : WebSide) : WebSide :=
  if s.closed then s else { s with closed := true, outbox := s.outbox.map (· ++ [.close]) }

/-- The reader ends and reports it. -/
def endReading (s : WebSide) : WebSide := { s.push .disconnected with reading := false }

end WebSide

namespace WebLink

/-- A connection that `near` opened to the server called `far`. -/
def connect (near far : Address) : WebLink := ⟨.fresh far, .fresh near, false⟩

def side (l : WebLink) : Side → WebSide
  | .near => l.near
  | .far => l.far

def setSide (l : WebLink) (s : WebSide) : Side → WebLink
  | .near => { l with near := s }
  | .far => { l with far := s }

def send (l : WebLink) (s : Side) (data : Bytes) : Except Failure UInt32 × WebLink :=
  let r := (l.side s).send data
  (r.1, l.setSide r.2 s)

def close (l : WebLink) (s : Side) : WebLink := l.setSide (l.side s).close s

/-- Put a frame on the connection, past the endpoint. -/
def arrive (l : WebLink) (s : Side) (f : Frame) : WebLink :=
  l.setSide { l.side s with arrived := (l.side s).arrived ++ [f] } s

/-- The sender of a side passes one frame on. It ends with a close frame, and when the connection is
down: that frame is lost, and later sends are refused. -/
def passOn? (l : WebLink) (s : Side) : Option WebLink :=
  match (l.side s).outbox with
  | some (f :: rest) =>
    if l.severed then some (l.setSide { l.side s with outbox := none } s)
    else
      let outbox := if f = .close then none else some rest
      some ((l.setSide { l.side s with outbox } s).arrive s.other f)
  | _ => none

/-- The reader of a side reads one frame, or finds that the connection is down. -/
def read? (l : WebLink) (s : Side) : Option WebLink :=
  let me := l.side s
  if !me.reading then none
  else match me.arrived with
    | .close :: rest => some { l.setSide { me with arrived := rest }.endReading s with severed := true }
    | f :: rest =>
      let me := { me with arrived := rest }
      some (l.setSide (match f.event? with
        | some e => me.push e
        | none => me) s)
    | [] => if l.severed then some (l.setSide me.endReading s) else none

def hangUp (l : WebLink) : WebLink := { l with severed := true }

def take (l : WebLink) (s : Side) : Option Event × WebLink :=
  match (l.side s).inbox with
  | some (e :: rest) => (some e, l.setSide { l.side s with inbox := some rest } s)
  | _ => (none, l)

def takeAll (l : WebLink) (s : Side) : Option (List Event) × WebLink :=
  match (l.side s).inbox with
  | some waiting => (some waiting, l.setSide { l.side s with inbox := some [] } s)
  | none => (none, l)

def drop (l : WebLink) (s : Side) : WebLink := l.setSide { l.side s with inbox := none } s

end WebLink

end Switchboard
