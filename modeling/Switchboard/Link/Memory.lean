import Switchboard.Endpoint

/-!
# Memory links

Two peers in one process, each with a stream of the events that come from the other. Both streams
begin with `connected`. Closing either side ends both with `disconnected` and refuses every later
send.
-/

namespace Switchboard

structure MemorySide where
  nextId : UInt32
  /-- The events that wait to be taken, unless the stream was dropped. -/
  inbox : Option (List Event)
deriving DecidableEq, Repr

structure MemoryLink where
  nearName : Address
  farName : Address
  near : MemorySide
  far : MemorySide
  closed : Bool
deriving DecidableEq, Repr

namespace MemorySide

def fresh : MemorySide := ⟨1, some [.connected]⟩

def push (s : MemorySide) (e : Event) : MemorySide := { s with inbox := s.inbox.map (· ++ [e]) }

end MemorySide

namespace MemoryLink

def connect (near far : Address) : MemoryLink := ⟨near, far, .fresh, .fresh, false⟩

def side (l : MemoryLink) : Side → MemorySide
  | .near => l.near
  | .far => l.far

def setSide (l : MemoryLink) (s : MemorySide) : Side → MemoryLink
  | .near => { l with near := s }
  | .far => { l with far := s }

def peer (l : MemoryLink) : Side → Address
  | .near => l.farName
  | .far => l.nearName

/-- Send to the other side. The id is used up also when the other side dropped its stream. -/
def send (l : MemoryLink) (s : Side) (data : Bytes) : Except Failure UInt32 × MemoryLink :=
  if l.closed then (.error (.sendFailure s!"link to {l.peer s} closed"), l)
  else
    let id := (l.side s).nextId
    let l := l.setSide { l.side s with nextId := id + 1 } s
    match (l.side s.other).inbox with
    | none => (.error (.sendFailure "channel closed"), l)
    | some _ => (.ok id, l.setSide ((l.side s.other).push (.received id data)) s.other)

/-- Close the link. Only the first close has an effect. -/
def close (l : MemoryLink) : MemoryLink :=
  if l.closed then l
  else { l with closed := true, near := l.near.push .disconnected, far := l.far.push .disconnected }

def take (l : MemoryLink) (s : Side) : Option Event × MemoryLink :=
  match (l.side s).inbox with
  | some (e :: rest) => (some e, l.setSide { l.side s with inbox := some rest } s)
  | _ => (none, l)

/-- Take all events that wait in a side's stream, unless it was dropped. -/
def takeAll (l : MemoryLink) (s : Side) : Option (List Event) × MemoryLink :=
  match (l.side s).inbox with
  | some waiting => (some waiting, l.setSide { l.side s with inbox := some [] } s)
  | none => (none, l)

def drop (l : MemoryLink) (s : Side) : MemoryLink := l.setSide { l.side s with inbox := none } s

end MemoryLink

end Switchboard
