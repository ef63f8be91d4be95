import Switchboard.Broker.Dispatch
import Switchboard.Broker.Reader
import Switchboard.Consumer
import Switchboard.Network
import Switchboard.Producer

/-!
# Clusters

A broker with its dispatch loop, and nodes that are connected to it: consumers, producers and bare
connections. An action moves one event from a stream to its owner, or lets the dispatch loop run.
-/

namespace Switchboard

inductive Role where
  | consumer (consumer : Consumer) (handler : Handler) (ended : Bool)
  | producer (task : Producer.Task Unit)
  | raw
  /-- The frames of a WebSocket connection stay where they arrive. -/
  | frames

structure Node where
  name : Address
  endpoint : Endpoint
  role : Role

/-- The broker's side of a connection, and whether its events are still being read. -/
structure Reading where
  endpoint : Endpoint
  active : Bool

/-- Something a node went through: its handler was given a request, or it learned the outcome of a
request. -/
inductive Happening where
  | got (payload : Bytes)
  | outcome (result : Except Failure Bytes)

structure Entry where
  node : Address
  id : Nat
  happening : Happening

structure Question where
  node : Nat
  tag : Nat
  future : Future

structure Cluster where
  broker : Broker
  network : Network
  nodes : List Node
  readers : List Reading
  questions : List Question
  /-- What happened, the last first. -/
  log : List Entry
  now : Nat

namespace Cluster

def ofBroker (b : Broker) : Cluster := ⟨b, .empty, [], [], [], [], 0⟩

def note (c : Cluster) (node : Address) (id : Nat) (h : Happening) : Cluster :=
  { c with log := ⟨node, id, h⟩ :: c.log }

def noteAll (c : Cluster) (node : Address) (notices : List (Notice Unit)) : Cluster :=
  notices.foldl (fun c n => c.note node n.id.toNat (.outcome n.outcome)) c

def setRole (c : Cluster) (i : Nat) (role : Role) : Cluster :=
  { c with nodes := c.nodes.modify i fun n => { n with role } }

/-! ## Actions -/

inductive Action where
  /-- A connection passes on or reads a frame. -/
  | advance (connection : Nat)
  | read (connection : Nat)
  | deliver (node : Nat)
  /-- The dispatch loop, which was woken, runs. -/
  | dispatch
deriving DecidableEq, Repr

/-- The broker reads an event of a connection, and no more after a disconnect. -/
def readEvent (c : Cluster) (i : Nat) (r : Reading) (event : Event) : Cluster :=
  let s := Broker.handleEvent Network.carrier c.broker r.endpoint event c.network
  let active := decide (event ≠ Event.disconnected)
  { c with
    broker := s.1
    network := s.2
    readers := c.readers.modify i fun r => { r with active } }

def deliverEvent (c : Cluster) (i : Nat) (n : Node) (event : Event) : Cluster :=
  match n.role with
  | .consumer consumer handler _ =>
    let s := consumer.handleEvent Network.carrier handler event c.network
    let c := { c with network := s.2.2 }.setRole i (.consumer s.2.1 handler (decide (event = Event.disconnected)))
    match s.1 with
    | none => c
    | some p => c.note n.name p.id.toNat (.got p.payload)
  | .producer task =>
    let s := task.handleEvent event
    (c.setRole i (.producer s.2)).noteAll n.name s.1
  | .raw | .frames => c

def takesEvents : Role → Bool
  | .consumer _ _ ended => !ended
  | .producer task => task.stage = .serving
  | .raw | .frames => false

def act? (c : Cluster) : Action → Option Cluster
  | .advance i => do
    let connection ← (← c.network.get? i).advance?
    some { c with network := c.network.modify i fun _ => connection }
  | .read i => do
    let r ← c.readers[i]?
    guard r.active
    match c.network.take r.endpoint with
    | (none, _) => none
    | (some event, network) => some ({ c with network }.readEvent i r event)
  | .deliver i => do
    let n ← c.nodes[i]?
    guard (takesEvents n.role)
    match c.network.take n.endpoint with
    | (none, _) => none
    | (some event, network) => some ({ c with network }.deliverEvent i n event)
  | .dispatch => do
    guard c.broker.woken
    let s := Broker.drain Network.carrier { c.broker with woken := false } c.network
    some { c with broker := s.2.1, network := s.2.2 }

/-- The actions that there may be, in the order in which they are tried. -/
def actions (c : Cluster) : List Action :=
  (List.range c.readers.length).map .advance ++ (List.range c.readers.length).map .read
    ++ (List.range c.nodes.length).map .deliver ++ [.dispatch]

/-- Act until nothing is left to do, in at most `n` actions. -/
def run : Nat → Cluster → Cluster
  | 0, c => c
  | n + 1, c =>
    match c.actions.findSome? c.act? with
    | none => c
    | some c => run n c

/-! ## Questions -/

def task? (c : Cluster) (i : Nat) : Option (Node × Producer.Task Unit) :=
  match c.nodes[i]? with
  | some n =>
    match n.role with
    | .producer task => some (n, task)
    | _ => none
  | none => none

def settleQuestion (c : Cluster) (q : Question) : Cluster :=
  match c.task? q.node with
  | none => c
  | some (n, task) =>
    match task.producer.poll q.future with
    | none => { c with questions := c.questions ++ [q] }
    | some outcome => c.note n.name q.tag (.outcome outcome)

def settleQuestions (c : Cluster) : Cluster :=
  c.questions.foldl settleQuestion { c with questions := [] }

def patience : Nat := 100000

/-- Let everything happen that is due. -/
def settle (c : Cluster) : Cluster := (c.run patience).settleQuestions

/-! ## Time -/

/-- The producers tick as their clocks say, and the requests that are due expire. -/
def tickNode (t : Nat) (c : Cluster) (i : Nat) : Cluster :=
  match c.task? i with
  | none => c
  | some (n, task) =>
    let interval := max task.producer.options.sweepInterval 1
    if c.now / interval < t / interval then
      let s := task.tick (t / interval * interval)
      (c.setRole i (.producer s.2)).noteAll n.name s.1
    else c

def advanceTo (c : Cluster) (t : Nat) : Cluster :=
  { (List.range c.nodes.length).foldl (tickNode t) c with now := max c.now t }

end Cluster

end Switchboard
