import Switchboard.Proofs.Attachment.Hosting

/-!
# A consumer attached to a broker

A broker with its network, and a consumer on memory link `i` of it that goes by the address `a`. The
broker's reader and the consumer's task take the events of the link one by one, each until it has taken
`disconnected`. Other peers use other links and addresses, the consumer asks for more while it is
registered, and the link may close at any time.
-/

namespace Switchboard

structure Attachment where
  broker : Broker
  network : Network
  consumer : Consumer
  /-- The broker still reads the link. -/
  reading : Bool
  /-- The consumer's task has ended. -/
  ended : Bool
  /-- What the consumer asked for while it was registered. -/
  later : List Control
  /-- What the broker and the consumer sent. -/
  sent : List Datagram

namespace Broker

/-- The operation is about another address and another link. -/
def Operation.Apart (a : Address) (i : Nat) : Operation → Prop
  | .event e _ | .data e _ _ => e.address ≠ a ∧ e.connection ≠ i
  | .disconnect a' => a' ≠ a
  | .pass | .resume | .recatalogue _ => True

variable {ω : Type} {a : Address} {i : Nat} {op : Operation}

theorem Operation.Apart.avoids (h : op.Apart a i) (c : Carrier ω) (w : ω) (b : Broker) :
    (b.turn c w op).Avoids a := by
  cases op with
  | event e event =>
    refine ⟨?_, ?_⟩
    · intro e' he
      cases event with
      | connected | received => cases he; exact h.1
      | disconnected => cases he
    · intro ho
      cases event with
      | connected | received => cases ho
      | disconnected => cases ho; exact h.1 rfl
  | data e id data => exact ⟨fun e' he => (by cases he; exact h.1), fun ho => (by cases ho)⟩
  | disconnect a' => exact ⟨fun e' he => (by cases he), fun ho => (by cases ho; exact h rfl)⟩
  | pass | resume | recatalogue => exact ⟨fun e' he => (by cases he), fun ho => (by cases ho)⟩

theorem Operation.Apart.parted (h : op.Apart a i) (c : Carrier ω) (w : ω) (b : Broker) :
    ∀ e, (b.turn c w op).endpoint? = some e → e.Parted a i := by
  intro e he
  cases op with
  | event e' event =>
    cases event with
    | connected | received => cases he; exact .inr h
    | disconnected => cases he
  | data e' id data => cases he; exact .inr h
  | disconnect | pass | resume | recatalogue => cases he

end Broker

namespace Attachment

/-- The link is made, and neither side has taken anything from it: the broker may deal with others first. -/
def start (b : Broker) (w : Network) (name : Address) (i : Nat) (commands : List String) : Attachment :=
  ⟨b, w, .ofCommands ⟨name, i, .near⟩ commands, true, false, [], []⟩

section
variable (s : Attachment)

def operate (op : Broker.Operation) : Attachment :=
  { s with
    broker := (s.broker.perform Network.carrier s.network op).1
    network := (s.broker.perform Network.carrier s.network op).2
    sent := s.sent ++ datagrams (s.broker.turn Network.carrier s.network op).sent }

/-- The broker takes an event, and no more after a disconnect. -/
def read (e : Endpoint) (event : Event) : Attachment :=
  { s.operate (.event e event) with reading := decide (event ≠ .disconnected) }

/-- The consumer takes an event, and no more after a disconnect. -/
def deliver (handler : Handler) (event : Event) : Attachment :=
  { s with
    consumer := (s.consumer.handleEvent Network.carrier handler event s.network).2.1
    network := (s.consumer.handleEvent Network.carrier handler event s.network).2.2
    ended := decide (event = .disconnected)
    sent := s.sent ++
      datagrams (s.consumer.handleEvent Network.carrier.recorded handler event (s.network, [])).2.2.2 }

def ask (m : Control) : Attachment :=
  { s with
    network := (s.consumer.control Network.carrier m s.network).2
    later := s.later ++ [m]
    sent := s.sent ++
      datagrams [⟨s.consumer.broker, m.toBytes, (s.consumer.control Network.carrier m s.network).1⟩] }

end

inductive Step (a : Address) (i : Nat) (s : Attachment) : Attachment → Prop
  | read {event : Event} {w' : Network} (hr : s.reading = true)
      (ht : s.network.take ⟨a, i, .far⟩ = (some event, w')) :
      Step a i s ({ s with network := w' }.read ⟨a, i, .far⟩ event)
  /-- The handler may be another one for each event. -/
  | deliver (handler : Handler) {event : Event} {w' : Network} (he : s.ended = false)
      (ht : s.network.take s.consumer.broker = (some event, w')) :
      Step a i s ({ s with network := w' }.deliver handler event)
  | ask (m : Control) (hr : s.consumer.registered = true) : Step a i s (s.ask m)
  | close (e : Endpoint) (he : e.connection = i) : Step a i s { s with network := s.network.close e }
  /-- The broker deals with another peer, or makes a pass. -/
  | operate {op : Broker.Operation} (ho : op.Apart a i) : Step a i s (s.operate op)
  /-- Another connection changes, or there is a new one. -/
  | elsewhere {w' : Network} (hw : w'.get? i = s.network.get? i) : Step a i s { s with network := w' }

inductive Reaches (a : Address) (i : Nat) (s : Attachment) : Attachment → Prop
  | refl : Reaches a i s s
  | next {s' s'' : Attachment} (h : Reaches a i s s') (hs : Step a i s' s'') : Reaches a i s s''

section
variable {a : Address} {i : Nat} {s s' : Attachment}

theorem Step.sent_prefix (h : Step a i s s') : s.sent <+: s'.sent := by
  cases h with
  | read | deliver | ask | operate => exact List.prefix_append ..
  | close | elsewhere => exact List.prefix_refl _

theorem Step.length_le (h : Step a i s s') (side : Side) :
    (wire s.sent i side).length ≤ (wire s'.sent i side).length := by
  obtain ⟨ds, hd⟩ := h.sent_prefix
  rw [← hd, wire_append, List.length_append]
  exact Nat.le_add_right ..

/-! ## What the broker sends on the link -/

variable {streams : Side → List Event} {op : Broker.Operation}

/-- Copies for the consumer, the ids of which are small. -/
def Copies (events : List Event) : Prop := ∀ event ∈ events, ∃ id data, event = .received id data ∧ id.toNat < 2 ^ 30

theorem Copies.append {events events' : List Event} (h : Copies events) (h' : Copies events') :
    Copies (events ++ events') := by
  intro event he
  rcases List.mem_append.mp he with he | he
  · exact h event he
  · exact h' event he

/-- The link after an operation of the broker: something may have arrived at the consumer's side, and the
broker's own stream is as it was. -/
structure Operated (s : Attachment) (a : Address) (i : Nat) (op : Broker.Operation) (streams : Side → List Event)
    (arrived : List Event) : Prop where
  link : ∃ streams', (s.operate op).network.Links i (s.operate op).sent false streams' ∧
    streams' .near = streams .near ++ arrived ∧ streams' .far = streams .far
  hosts : (s.operate op).broker.Hosts a i
  copies : Copies arrived
  /-- Everything that was sent on the link arrived. -/
  ok : ∀ x ∈ (s.broker.turn Network.carrier s.network op).sent, x.endpoint.connection = i → x.result.isOk = true
  eq : arrived = (wire (datagrams (s.broker.turn Network.carrier s.network op).sent) i .far).map (·.event)

theorem operated (hl : s.network.Links i s.sent false streams) (hh : s.broker.Hosts a i)
    (hp : ∀ e, (s.broker.turn Network.carrier s.network op).endpoint? = some e → e.Parted a i)
    (hq : ∀ m, (s.broker.turn Network.carrier s.network op).enqueued? = some m → m.producer ≠ a)
    (hb : (wire (s.operate op).sent i .far).length < 2 ^ 30) : ∃ arrived, s.Operated a i op streams arrived := by
  obtain ⟨hafter, hsends⟩ := Broker.turn_performs Network.carrier s.network s.broker op
  obtain ⟨hlink, hok⟩ := hl.sends hsends
  have ht := Broker.turn_occurs Network.carrier s.network s.broker op
  have hbefore := Broker.turn_before Network.carrier s.network s.broker op
  have hh' : (s.broker.turn Network.carrier s.network op).before.Hosts a i := by rw [hbefore]; exact hh
  have hfar : ∀ x ∈ (s.broker.turn Network.carrier s.network op).sent, x.endpoint.connection = i →
      x.endpoint = ⟨a, i, .far⟩ := fun x hx hi => (ht.sent_on hh' hp hx (hok x hx hi) hi).1
  have hid : ∀ d ∈ datagrams (s.broker.turn Network.carrier s.network op).sent, d.connection = i →
      d.side = .far ∧ d.id.toNat < 2 ^ 30 := by
    intro d hd hi
    obtain ⟨x, hx, id, -, rfl⟩ := mem_datagrams.mp hd
    have hside : x.endpoint.side = .far := by rw [hfar x hx hi]
    refine ⟨hside, hlink.id_lt hb (mem_wire.mpr ⟨List.mem_append_right _ hd, hi, hside⟩)⟩
  refine ⟨_, ⟨_, hlink, rfl, ?_⟩, ?_, ?_, hok, rfl⟩
  · have hnear : wire (datagrams (s.broker.turn Network.carrier s.network op).sent) i .near = [] := by
      refine List.filter_eq_nil_iff.mpr fun d hd => ?_
      intro hc
      obtain ⟨hi, hs⟩ := of_decide_eq_true hc
      rw [(hid d hd hi).1] at hs
      cases hs
    show streams .far ++ (wire _ i .near).map _ = streams .far
    rw [hnear, List.map_nil, List.append_nil]
  · show (s.broker.perform Network.carrier s.network op).1.Hosts a i
    rw [← hafter]
    exact ht.hosts hh' hp hq fun d hd hi => (hid d hd hi).2
  · intro event he
    obtain ⟨d, hd, rfl⟩ := List.mem_map.mp he
    obtain ⟨hd, hi, -⟩ := mem_wire.mp hd
    exact ⟨d.id, d.data, rfl, (hid d hd hi).2⟩

/-- Nothing arrives unless the consumer's hello is read, or it is registered and a pass is made. -/
theorem Operated.nothing {arrived : List Event} (h : s.Operated a i op streams arrived) (hh : s.broker.Hosts a i)
    (hp : ∀ e, (s.broker.turn Network.carrier s.network op).endpoint? = some e → e.Parted a i)
    (hr : ∀ id r, (s.broker.turn Network.carrier s.network op).outcome ≠ .read ⟨a, i, .far⟩ id hello r)
    (hc : s.broker.consumers.contains a = false ∨
      ∀ p, (s.broker.turn Network.carrier s.network op).outcome ≠ .passed p) : arrived = [] := by
  rw [h.eq, wire_eq_nil, List.map_nil]
  intro d hd hi
  obtain ⟨x, hx, id, -, rfl⟩ := mem_datagrams.mp hd
  have ht := Broker.turn_occurs Network.carrier s.network s.broker op
  have hbefore := Broker.turn_before Network.carrier s.network s.broker op
  rcases (ht.sent_on (by rw [hbefore]; exact hh) hp hx (h.ok x hx hi) hi).2 with ⟨id', r, ho⟩ | ⟨hreg, p, ho⟩
  · exact hr id' r ho
  · rcases hc with hc | hc
    · rw [hbefore, hc] at hreg
      cases hreg
    · exact hc p ho

end

end Attachment

end Switchboard
