import Switchboard.Broker.Basic

/-!
# Reading what peers send

The hello token registers its sender as a consumer. Data from a registered consumer is an answer
packet, routed to the producer it correlates to; in command mode a payload that correlates to nothing
may be a control message. Anything else is a request and goes to the queue. A disconnect forgets the
peer, its registration and its subscriptions.
-/

namespace Switchboard

inductive Inbound where
  | registered
  | forwarded (producer : Address) (id : UInt32)
  | subscribed (command : String)
  | unsubscribed (command : String)
  | enqueued (seq : UInt64)
  | apiHandshake
deriving DecidableEq, Repr

namespace Broker

variable {ω : Type}

def findPeer (b : Broker) (a : Address) : Except Failure Endpoint :=
  match b.peers.get? a with
  | none => .error (.peerNotFound a)
  | some e => .ok e

/-- Note a peer, in place of an earlier one of its address. -/
def connect (b : Broker) (e : Endpoint) : Broker := { b with peers := b.peers.insert e.address e }

/-- Note a peer whose address is not known yet. -/
def meet (b : Broker) (e : Endpoint) : Broker := if b.peers.contains e.address then b else b.connect e

/-- Forget a peer. The correlations of what it was sent stay. -/
def disconnect (b : Broker) (a : Address) : Broker :=
  { b with
    consumers := (b.consumers.remove a).2
    subscriptions := b.subscriptions.dropAll a
    peers := b.peers.erase a }

/-- Register a consumer and acknowledge it. A failed acknowledgement leaves it registered. -/
def registerConsumer (c : Carrier ω) (b : Broker) (e : Endpoint) (w : ω) :
    Except Failure Inbound × Broker × ω :=
  match b.consumers.add e with
  | (.error f, _) => (.error f, b, w)
  | (.ok _, consumers) => (.ok .registered, { b with consumers }.wake, (c.send w e helloAck).2)

def forward (c : Carrier ω) (b : Broker) (o : Origin) (payload : Bytes) (w : ω) :
    Except Failure Inbound × ω :=
  match b.findPeer o.producer with
  | .error f => (.error f, w)
  | .ok e =>
    match c.send w e (Packet.encode ⟨o.id, payload⟩) with
    | (.error f, w) => (.error f, w)
    | (.ok _, w) => (.ok (.forwarded o.producer o.id), w)

/-- A subscription wakes the dispatch loop: a stalled request may be deliverable now. -/
def applyControl (b : Broker) (consumer : Address) : Control → Inbound × Broker
  | .subscribe command =>
    (.subscribed command,
      { b with subscriptions := (b.subscriptions.subscribe consumer command).2 }.wake)
  | .unsubscribe command =>
    (.unsubscribed command,
      { b with subscriptions := (b.subscriptions.unsubscribe consumer command).2 })

def readConsumer (c : Carrier ω) (b : Broker) (consumer : Address) (data : Bytes) (w : ω) :
    Except Failure Inbound × Broker × ω :=
  match Packet.decode data with
  | .error f => if data = apiHandshake then (.ok .apiHandshake, b, w) else (.error f, b, w)
  | .ok packet =>
    match b.answers.take ⟨consumer, packet.id⟩ with
    | (.ok origin, answers) =>
      let r := forward c b origin packet.payload w
      (r.1, { b with answers }, r.2)
    | (.error f, _) =>
      match b.mode, Control.ofBytes? data with
      | .command, some control =>
        let r := b.applyControl consumer control
        (.ok r.1, r.2, w)
      | _, _ => (.error f, b, w)

/-- In command mode a request has to be a command of the catalogue. -/
def allow (b : Broker) (data : Bytes) : Except Failure Unit :=
  match b.mode with
  | .direct => .ok ()
  | .command => (b.commands.resolve data).map fun _ => ()

def enqueue (b : Broker) (producer : Address) (id : UInt32) (data : Bytes) :
    Except Failure Inbound × Broker :=
  match b.allow data with
  | .error f => (.error f, b)
  | .ok _ =>
    let r := b.queue.enqueue { producer, producerId := id, payload := data }
    (.ok (.enqueued r.1), { b with queue := r.2 }.wake)

def handleData (c : Carrier ω) (b : Broker) (e : Endpoint) (id : UInt32) (data : Bytes) (w : ω) :
    Except Failure Inbound × Broker × ω :=
  let b := b.meet e
  if data = hello then registerConsumer c b e w
  else if b.consumers.contains e.address then readConsumer c b e.address data w
  else
    let r := b.enqueue e.address id data
    (r.1, r.2, w)

/-- Act on an event of a connection. A payload that cannot be handled is dropped. -/
def handleEvent (c : Carrier ω) (b : Broker) (e : Endpoint) (event : Event) (w : ω) : Broker × ω :=
  match event with
  | .connected => (b.connect e, w)
  | .disconnected => (b.disconnect e.address, w)
  | .received id data => (handleData c b e id data w).2

end Broker

end Switchboard
