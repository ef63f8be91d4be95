import Switchboard.Cluster.Basic

/-!
# Using a cluster

Starting nodes, and what can be asked of them. A node on a WebSocket link is there only if its
server could be reached.
-/

namespace Switchboard.Cluster

/-! ## Starting nodes -/

def addNode (c : Cluster) (name : Address) (connection : Connection) (brokerName peerName : Address)
    (role : Endpoint → Role) : Nat × Cluster :=
  let r := c.network.add connection
  let own : Endpoint := ⟨brokerName, r.1, .near⟩
  (c.nodes.length,
    { c with
      network := r.2
      nodes := c.nodes ++ [⟨name, own, role own⟩]
      readers := c.readers ++ [⟨⟨peerName, r.1, .far⟩, true⟩] })

def brokerName : Address := "broker"

def addLinked (c : Cluster) (name : Address) (role : Endpoint → Role) : Nat × Cluster :=
  c.addNode name (.memory (.connect name brokerName)) brokerName name role

/-- Add a node on a link to the WebSocket server at `url`. The broker gives it an address of its
own. -/
def addWeb (c : Cluster) (name url : Address) (role : Endpoint → Role) : Nat × Cluster :=
  let peer := s!"client-{c.readers.length}"
  c.addNode name (.web (.connect peer url)) url peer role

/-- Add a bare connection to the WebSocket server at `url`, whose frames nobody reads. -/
def addFrames (c : Cluster) (name url : Address) : Nat × Cluster :=
  let peer := s!"client-{c.readers.length}"
  let link := WebLink.connect peer url
  c.addNode name (.web { link with near := { link.near with reading := false } }) url peer
    fun _ => .frames

/-- Add a node as `addWeb` does, if the server can be reached over `route`. -/
def dial (c : Cluster) (route : Route) (name url : Address) (role : Endpoint → Role) :
    Except Failure (Nat × Cluster) :=
  match route.obstacle? with
  | some f => .error f
  | none => .ok (c.addWeb name url role)

/-- Add a bare connection as `addFrames` does, if the server can be reached over `route`. -/
def dialFrames (c : Cluster) (route : Route) (name url : Address) :
    Except Failure (Nat × Cluster) :=
  match route.obstacle? with
  | some f => .error f
  | none => .ok (c.addFrames name url)

def consumerRole (commands : List String) (handler : Handler) (e : Endpoint) : Role :=
  .consumer (.ofCommands e commands) handler false

def producerRole (options : ProducerOptions) (e : Endpoint) : Role :=
  .producer ⟨.ofOptions e options, .serving⟩

/-- A node is replaced: a stream that only it read is dropped, and a bare connection is cut. -/
def abandon (c : Cluster) (i : Nat) : Cluster :=
  match c.nodes[i]? with
  | some ⟨_, e, .raw⟩ => { c with network := c.network.drop e }
  | some ⟨_, e, .frames⟩ =>
    { c with network := c.network.modify e.connection fun
        | .web l => .web l.hangUp
        | other => other }
  | _ => c

/-! ## Requests -/

def send (c : Cluster) (i : Nat) (data : Bytes) : Option (Except Failure UInt32 × Cluster) := do
  let n ← c.nodes[i]?
  let r := Network.carrier.send c.network n.endpoint data
  some (r.1, { c with network := r.2 })

def request (c : Cluster) (i : Nat) (data : Bytes) : Option (Except Failure UInt32 × Cluster) := do
  let (_, task) ← c.task? i
  let r := task.producer.sendWith Network.carrier data none (.callback ()) c.now c.network
  some (r.1, { c with network := r.2.2 }.setRole i (.producer ⟨r.2.1, task.stage⟩))

/-- A producer sends a request and waits for its first outcome, which is noted under `tag`. -/
def ask (c : Cluster) (i : Nat) (data : Bytes) (tag : Nat) : Option Cluster := do
  let (n, task) ← c.task? i
  let r := task.producer.request Network.carrier data c.now c.network
  let c := { c with network := r.2.2 }.setRole i (.producer ⟨r.2.1, task.stage⟩)
  some (match r.1 with
    | .error f => c.note n.name tag (.outcome (.error f))
    | .ok future => { c with questions := c.questions ++ [⟨i, tag, future⟩] })

def forget (c : Cluster) (i : Nat) (id : UInt32) : Option (Bool × Cluster) := do
  let (_, task) ← c.task? i
  let r := task.producer.forget id
  some (r.1, c.setRole i (.producer ⟨r.2, task.stage⟩))

def pending (c : Cluster) (i : Nat) : Option Nat := do
  let (_, task) ← c.task? i
  some task.producer.tracker.size

def control (c : Cluster) (i : Nat) (m : Control) : Option (Except Failure UInt32 × Cluster) := do
  let n ← c.nodes[i]?
  match n.role with
  | .consumer consumer _ _ =>
    let r := consumer.control Network.carrier m c.network
    some (r.1, { c with network := r.2 })
  | _ => none

def registered (c : Cluster) (i : Nat) : Option Bool := do
  match (← c.nodes[i]?).role with
  | .consumer consumer _ _ => some consumer.registered
  | _ => none

/-! ## Connections -/

def receive (c : Cluster) (i : Nat) : Option (Option (List Event) × Cluster) := do
  let n ← c.nodes[i]?
  let r := c.network.takeAll n.endpoint
  some (r.1, { c with network := r.2 })

def closeOwn (c : Cluster) (i : Nat) : Option Cluster := do
  let n ← c.nodes[i]?
  some { c with network := c.network.close n.endpoint }

def closeBroker (c : Cluster) (i : Nat) : Option Cluster := do
  let n ← c.nodes[i]?
  let r ← c.readers[n.endpoint.connection]?
  some { c with network := c.network.close r.endpoint }

def sendFrame (c : Cluster) (i : Nat) (f : Frame) : Option Cluster := do
  let n ← c.nodes[i]?
  some { c with network := c.network.modify n.endpoint.connection fun
    | .web l => .web (l.arrive .far f)
    | other => other }

/-- The payloads of the binary frames that arrived at a bare WebSocket connection. -/
def receiveFrames (c : Cluster) (i : Nat) : Option (List Bytes × Cluster) := do
  let n ← c.nodes[i]?
  match c.network.get? n.endpoint.connection with
  | some (.web l) =>
    let payloads := l.near.arrived.filterMap fun
      | .binary data => some data
      | _ => none
    let l := { l with near := { l.near with arrived := [] } }
    some (payloads, { c with network := c.network.modify n.endpoint.connection fun _ => .web l })
  | _ => none

def hangUp (c : Cluster) (i : Nat) : Option Cluster := do
  let n ← c.nodes[i]?
  some { c with network := c.network.modify n.endpoint.connection fun
    | .web l => .web l.hangUp
    | other => other }

/-! ## Ends -/

/-- Whether the broker has stopped reading a node's connection, and whether the node's own task has
ended. There is no saying of the reader of a WebSocket connection, or of the task of a bare one. -/
def finished (c : Cluster) (i : Nat) : Option (Option Bool × Option Bool) := do
  let n ← c.nodes[i]?
  let reader := match c.network.get? n.endpoint.connection, c.readers[n.endpoint.connection]? with
    | some (.memory _), some r => some !r.active
    | _, _ => none
  let role := match n.role with
    | .consumer _ _ ended => some ended
    | .producer task => some (task.stage = .finished)
    | .raw | .frames => none
  some (reader, role)

def joinLimit : Nat := 10000

/-- The time of a producer's first tick at which nothing is pending any more. -/
def lastTick (now : Nat) (p : Producer Unit) : Nat :=
  let interval := max p.options.sweepInterval 1
  let last := (p.tracker.pending.entries.map fun e => e.2.deadline).foldl max 0
  max ((last + interval - 1) / interval) (now / interval + 1) * interval

/-- Wait for a node's task. A producer whose link has closed ends when all its requests have
expired. -/
def join (c : Cluster) (i : Nat) : Option (Bool × Cluster) := do
  let n ← c.nodes[i]?
  match n.role with
  | .consumer _ _ ended => some (ended, c)
  | .producer task =>
    match task.stage with
    | .finished => some (true, c)
    | .serving => some (false, c.advanceTo (c.now + joinLimit))
    | .draining =>
      let t := lastTick c.now task.producer
      if t ≤ c.now + joinLimit then some (true, c.advanceTo t)
      else some (false, c.advanceTo (c.now + joinLimit))
  | .raw | .frames => none

end Switchboard.Cluster
