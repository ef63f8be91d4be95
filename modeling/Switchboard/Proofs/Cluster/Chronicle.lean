import Mathlib.Data.Option.Basic
import Switchboard.Cluster.Steps
import Switchboard.Proofs.Broker.Runs
import Switchboard.Proofs.Consumer
import Switchboard.Proofs.Producer
import Switchboard.Proofs.Wires

/-!
# Clusters of memory links, step by step

A chronicle is a cluster and the record of what happened in it. Its steps are what the nodes, the broker
and its dispatch loop can do, one event or one pass at a time and in any order. Nodes may join under new
names, links may close, and the handler of a consumer may become another at any time.
-/

namespace Switchboard.Cluster

/-- The handler of a consumer was given the payload that came under `id`. -/
structure Handled where
  node : Nat
  id : UInt32
  payload : Bytes
  answer : Option Bytes

/-- The callback of a request was run with an answer, which came under the id `under`. -/
structure Called extends Producer.Answered Unit where
  node : Nat
  under : UInt32

structure Chronicle where
  cluster : Cluster
  /-- The turns of the broker. -/
  turns : List Broker.Turn
  sent : List Datagram
  taken : List Datagram
  handled : List Handled
  /-- The requests of each producer, and the notices that it gave its callbacks. -/
  asked : List (Nat × Producer.Asking Unit)
  notices : List (Nat × Notice Unit)
  called : List Called

/-! ## What a node does with an event -/

section
variable (n : Node) (i : Nat) (event : Event) (w : Network)

def nodeSends : List Sending :=
  match n.role with
  | .consumer consumer handler _ => (consumer.handleEvent Network.carrier.recorded handler event (w, [])).2.2.2
  | .producer _ | .raw | .frames => []

def handled? : Option Handled :=
  match n.role with
  | .consumer consumer handler _ =>
    (consumer.handleEvent Network.carrier handler event w).1.map fun p => ⟨i, p.id, p.payload, handler p⟩
  | .producer _ | .raw | .frames => none

def nodeNotices : List (Notice Unit) :=
  match n.role with
  | .producer task => (task.handleEvent event).1
  | .consumer _ _ _ | .raw | .frames => []

/-- The request of the node that the event answers. The ledgers of a chronicle balance this with the notices
that the node gives (`Chronicle.Balanced`). -/
def called? : Option Called :=
  match n.role, event with
  | .producer task, .received under _ => (task.producer.answered? event).map fun a => ⟨a, i, under⟩
  | _, _ => none

end

/-! ## Steps -/

namespace Chronicle

def start (b : Broker) : Chronicle := ⟨.ofBroker b, [], [], [], [], [], [], []⟩

/-- The broker takes a turn that leads to `cluster`. -/
def turned (s : Chronicle) (t : Broker.Turn) (cluster : Cluster) : Chronicle :=
  { s with cluster, turns := s.turns ++ [t], sent := s.sent ++ t.sent.filterMap (·.datagram?) }

/-- The broker takes an event. -/
def readBy (s : Chronicle) (i : Nat) (r : Reading) (event : Event) (w' : Network) : Chronicle :=
  { s.turned (s.cluster.broker.turn Network.carrier w' (.event r.endpoint event))
      ({ s.cluster with network := w' }.readEvent i r event) with
    taken := s.taken ++ (event.datagram? r.endpoint.connection r.endpoint.side.other).toList }

/-- A node takes an event. -/
def deliveredTo (s : Chronicle) (i : Nat) (n : Node) (event : Event) (w' : Network) : Chronicle :=
  { s with
    cluster := { s.cluster with network := w' }.deliverEvent i n event
    sent := s.sent ++ (nodeSends n event w').filterMap (·.datagram?)
    taken := s.taken ++ (event.datagram? n.endpoint.connection n.endpoint.side.other).toList
    handled := s.handled ++ (handled? n i event w').toList
    notices := s.notices ++ (nodeNotices n event).map (i, ·)
    called := s.called ++ (called? n i event).toList }

/-- A producer does something by itself. -/
def actedOn (s : Chronicle) (i : Nat) (d : Producer.Task.Deed Unit) (task' : Producer.Task Unit) (w' : Network) :
    Chronicle :=
  { s with
    cluster := { s.cluster with network := w' }.setRole i (.producer task')
    sent := s.sent ++ d.sent.filterMap (·.datagram?)
    asked := s.asked ++ d.asked.map (i, ·)
    notices := s.notices ++ d.notices.map (i, ·) }

/-- The dispatch loop makes one pass. -/
def passed (s : Chronicle) : Chronicle :=
  s.turned (s.cluster.broker.turn Network.carrier s.cluster.network .pass)
    { s.cluster with
      broker := (Broker.dispatch Network.carrier s.cluster.broker s.cluster.network).2.1
      network := (Broker.dispatch Network.carrier s.cluster.broker s.cluster.network).2.2 }

/-- The dispatch loop goes on after it was woken. -/
def resumed (s : Chronicle) : Chronicle :=
  s.turned (s.cluster.broker.turn Network.carrier s.cluster.network .resume)
    { s.cluster with broker := { s.cluster.broker with woken := false } }

inductive Step (s : Chronicle) : Chronicle → Prop
  | consumer (name : Address) (commands : List String) (handler : Handler)
      (hn : name ∉ s.cluster.nodes.map (·.name)) :
      Step s { s with cluster := (s.cluster.addLinked name (consumerRole commands handler)).2 }
  | producer (name : Address) (options : ProducerOptions) (hn : name ∉ s.cluster.nodes.map (·.name)) :
      Step s { s with cluster := (s.cluster.addLinked name (producerRole options)).2 }
  | handler {i : Nat} {n : Node} {consumer : Consumer} {old : Handler} {ended : Bool}
      (hi : s.cluster.nodes[i]? = some n) (hr : n.role = .consumer consumer old ended) (new : Handler) :
      Step s { s with cluster := s.cluster.setRole i (.consumer consumer new ended) }
  | act {i : Nat} {n : Node} {task task' : Producer.Task Unit} {d : Producer.Task.Deed Unit} {w' : Network}
      (hi : s.cluster.nodes[i]? = some n) (hr : n.role = .producer task)
      (ha : task.Acts Network.carrier s.cluster.network d task' w') : Step s (s.actedOn i d task' w')
  | control {i : Nat} {n : Node} {consumer : Consumer} {handler : Handler} {ended : Bool}
      (hi : s.cluster.nodes[i]? = some n) (hr : n.role = .consumer consumer handler ended) (m : Control) :
      Step s { s with
        cluster := { s.cluster with network := (consumer.control Network.carrier m s.cluster.network).2 }
        sent := s.sent ++ (Sending.datagram?
          ⟨consumer.broker, m.toBytes, (consumer.control Network.carrier m s.cluster.network).1⟩).toList }
  | close (e : Endpoint) : Step s { s with cluster := { s.cluster with network := s.cluster.network.close e } }
  | read {i : Nat} {r : Reading} {event : Event} {w' : Network} (hr : s.cluster.readers[i]? = some r)
      (ha : r.active = true) (ht : s.cluster.network.take r.endpoint = (some event, w')) :
      Step s (s.readBy i r event w')
  | deliver {i : Nat} {n : Node} {event : Event} {w' : Network} (hi : s.cluster.nodes[i]? = some n)
      (ha : takesEvents n.role = true) (ht : s.cluster.network.take n.endpoint = (some event, w')) :
      Step s (s.deliveredTo i n event w')
  | pass : Step s s.passed
  | resume : Step s s.resumed
  /-- The log, the open questions and the clock do not matter. -/
  | noted (questions : List Question) (log : List Entry) (now : Nat) :
      Step s { s with cluster := { s.cluster with questions, log, now } }

inductive Reaches (s : Chronicle) : Chronicle → Prop
  | refl : Reaches s s
  | next {s' s'' : Chronicle} (h : Reaches s s') (hs : Step s' s'') : Reaches s s''

theorem Reaches.trans {s s' s'' : Chronicle} (h : Reaches s s') (h' : Reaches s' s'') : Reaches s s'' := by
  induction h' with
  | refl => exact h
  | next _ hs ih => exact ih.next hs

/-! ## Actions as steps -/

/-- Let the broker or a node take its next event. -/
def act? (s : Chronicle) : Action → Option Chronicle
  | .read i =>
    match s.cluster.readers[i]? with
    | none => none
    | some r =>
      match r.active, s.cluster.network.take r.endpoint with
      | true, (some event, w') => some (s.readBy i r event w')
      | _, _ => none
  | .deliver i =>
    match s.cluster.nodes[i]? with
    | none => none
    | some n =>
      match takesEvents n.role, s.cluster.network.take n.endpoint with
      | true, (some event, w') => some (s.deliveredTo i n event w')
      | _, _ => none
  | .advance _ | .dispatch => none

def follow? (s : Chronicle) : List Action → Option Chronicle
  | [] => some s
  | a :: as => (s.act? a).bind fun s' => s'.follow? as

theorem step_of_act? {s s' : Chronicle} {a : Action} (h : s.act? a = some s') : Step s s' := by
  unfold act? at h
  split at h
  · split at h
    · cases h
    · next r hr =>
      split at h
      · next event w' ha ht =>
        obtain rfl := Option.some.inj h
        exact .read hr ha ht
      · cases h
  · split at h
    · cases h
    · next n hn =>
      split at h
      · next event w' ha ht =>
        obtain rfl := Option.some.inj h
        exact .deliver hn ha ht
      · cases h
  · cases h
  · cases h

theorem act?_read (s : Chronicle) (i : Nat) :
    s.cluster.act? (.read i) = (s.act? (.read i)).map (·.cluster) := by
  simp only [Cluster.act?, act?]
  cases s.cluster.readers[i]? with
  | none => rfl
  | some r =>
    obtain ⟨endpoint, active⟩ := r
    simp only [Option.bind_eq_bind, Option.bind_some]
    cases active with
    | false => rfl
    | true =>
      cases s.cluster.network.take endpoint with
      | mk event w' => cases event <;> rfl

theorem act?_deliver (s : Chronicle) (i : Nat) :
    s.cluster.act? (.deliver i) = (s.act? (.deliver i)).map (·.cluster) := by
  simp only [Cluster.act?, act?]
  cases s.cluster.nodes[i]? with
  | none => rfl
  | some n =>
    simp only [Option.bind_eq_bind, Option.bind_some]
    cases takesEvents n.role with
    | false => rfl
    | true =>
      cases s.cluster.network.take n.endpoint with
      | mk event w' => cases event <;> rfl

theorem Reaches.follow {s : Chronicle} : ∀ (as : List Action) {s' s'' : Chronicle}, Reaches s s' →
    s'.follow? as = some s'' → Reaches s s''
  | [], s', s'', h, hf => by
    obtain rfl := Option.some.inj hf
    exact h
  | a :: as, s', s'', h, hf => by
    obtain ⟨s1, ha, hf⟩ := Option.bind_eq_some_iff.mp hf
    exact Reaches.follow as (h.next (step_of_act? ha)) hf

end Chronicle

end Switchboard.Cluster
