import Mathlib.Data.List.Forall2
import Switchboard.Proofs.Broker.Conservation

/-!
# Routing does not read the bodies of requests

Two runs that differ in the bodies of requests, over connections that do not look at what they carry, go
the same way. `Mirrors` relates their brokers: they are equal but for the payloads in the queue, and each
payload resolves as its counterpart does. Every operation keeps it, and comes to the same in both runs.
-/

namespace Switchboard

section
variable {ω : Type} {c : Carrier ω} {R : ω → ω → Prop}

/-- Connections that `R` relates take whatever they are given to the same results, and stay related. -/
structure Carrier.Blind (c : Carrier ω) (R : ω → ω → Prop) : Prop where
  result : ∀ {w w'} e data data', R w w' → (c.send w e data).1 = (c.send w' e data').1
  related : ∀ {w w'} e data data', R w w' → R (c.send w e data).2 (c.send w' e data').2

/-- A datagram apart from its contents. -/
def Sending.fate (s : Sending) : Endpoint × Except Failure UInt32 := (s.endpoint, s.result)

def RecordsAlike (R : ω → ω → Prop) (v v' : ω × List Sending) : Prop :=
  R v.1 v'.1 ∧ v.2.map (·.fate) = v'.2.map (·.fate)

theorem Carrier.Blind.recorded (hc : c.Blind R) : c.recorded.Blind (RecordsAlike R) := by
  refine ⟨?_, ?_⟩
  · intro v v' e data data' h
    exact hc.result e data data' h.1
  · intro v v' e data data' h
    refine ⟨hc.related e data data' h.1, ?_⟩
    simp only [Carrier.recorded, List.map_append, List.map_cons, List.map_nil, h.2]
    rw [Sending.fate, Sending.fate, hc.result e data data' h.1]

end

/-! ## Payloads that resolve alike -/

/-- Payloads that may stand in for each other: in command mode, those of one command. -/
def Alike (mode : DispatchMode) (data data' : Bytes) : Prop :=
  data = data' ∨ (mode = .command → ∃ command command', Command.ofBytes data = .ok command ∧
    Command.ofBytes data' = .ok command' ∧ command.name = command'.name)

section
variable {data data' : Bytes}

theorem Alike.resolve (h : Alike .command data data') (commands : Catalogue) :
    (commands.resolve data).map (·.command.name) = (commands.resolve data').map (·.command.name) := by
  rcases h with rfl | h
  · rfl
  · obtain ⟨command, command', hc, hc', hn⟩ := h rfl
    unfold Catalogue.resolve
    simp only [hc, hc', hn]
    cases commands.get? command'.name with
    | none => rfl
    | some spec => simp [Except.map, hn]

theorem Alike.allow {b : Broker} (h : Alike b.mode data data') : b.allow data = b.allow data' := by
  unfold Broker.allow
  cases hm : b.mode with
  | direct => rfl
  | command =>
    rw [hm] at h
    have hr := h.resolve b.commands
    cases h1 : b.commands.resolve data <;> cases h2 : b.commands.resolve data' <;>
      simp_all [Except.map]

end

structure Message.Mirrors (mode : DispatchMode) (m m' : Message) : Prop where
  same : m' = { m with payload := m'.payload }
  payload : Alike mode m.payload m'.payload

namespace Broker

/-- Brokers that are equal but for the payloads in the queue. -/
structure Mirrors (b b' : Broker) : Prop where
  same : b' = { b with queue := b'.queue }
  lastSeq : b'.queue.lastSeq = b.queue.lastSeq
  messages : List.Forall₂ (Message.Mirrors b.mode) b.queue.messages b'.queue.messages

theorem mirrors_fresh (mode : DispatchMode) (commands : Catalogue) (maxAttempts : UInt32) :
    (fresh mode commands maxAttempts).Mirrors (fresh mode commands maxAttempts) := ⟨rfl, rfl, .nil⟩

/-- What an operation comes to in two runs: results are equal and states related. -/
structure Agree {α σ ω : Type} (S : σ → σ → Prop) (R : ω → ω → Prop) (r r' : α × σ × ω) : Prop where
  result : r.1 = r'.1
  states : S r.2.1 r'.2.1
  worlds : R r.2.2 r'.2.2

section
variable {ω : Type} {c : Carrier ω} {R : ω → ω → Prop} {w w' : ω} {b b' : Broker}

theorem Mirrors.elim (h : b.Mirrors b') : ∃ ms', b' = { b with queue := ⟨ms', b.queue.lastSeq⟩ } ∧
    List.Forall₂ (Message.Mirrors b.mode) b.queue.messages ms' := by
  refine ⟨b'.queue.messages, ?_, h.messages⟩
  rw [← h.lastSeq]
  exact h.same

theorem Mirrors.stats (h : b.Mirrors b') : b.stats = b'.stats := by
  obtain ⟨ms', rfl, hm⟩ := h.elim
  simp only [Broker.stats, Queue.size, hm.length_eq]

/-! ## Passes -/

section
variable {m m' : Message}

theorem deliver_agree (hc : c.Blind R) (hw : R w w') (hm : m.Mirrors b.mode m') (e : Endpoint)
    (answers : Correlations) : Agree Eq R (deliver c m e answers w) (deliver c m' e answers w') := by
  have hr := hc.result e m.payload m'.payload hw
  unfold deliver
  rw [hm.same]
  refine ⟨?_, ?_, hc.related e m.payload m'.payload hw⟩
  · simp only [hr]
  · simp only [hr]

theorem offer_agree (hc : c.Blind R) (hm : m.Mirrors b.mode m') : ∀ (es : List Endpoint)
    (answers : Correlations) {w w' : ω}, R w w' →
      Agree Eq R (offer c m es answers w) (offer c m' es answers w')
  | [], answers, w, w', hw => ⟨rfl, rfl, hw⟩
  | e :: es, answers, w, w', hw => by
    have hd := deliver_agree hc hw hm e answers
    have ho := offer_agree hc hm es (deliver c m e answers w).2.1 hd.worlds
    unfold offer
    dsimp only
    rw [← hd.states, ← hd.result]
    refine ⟨?_, ho.states, ho.worlds⟩
    dsimp only
    rw [ho.result]

end

theorem Mirrors.dispatchDirect (h : b.Mirrors b') (hc : c.Blind R) (hw : R w w') :
    Agree Mirrors R (dispatchDirect c b w) (dispatchDirect c b' w') := by
  obtain ⟨ms', rfl, hm⟩ := h.elim
  unfold Broker.dispatchDirect
  rcases b.consumers.next with ⟨_ | e, consumers⟩
  · exact ⟨rfl, h, hw⟩
  · unfold Queue.dequeue
    cases hq : b.queue.messages with
    | nil =>
      rw [hq] at hm
      cases hm
      exact ⟨rfl, ⟨rfl, rfl, by rw [hq]; exact .nil⟩, hw⟩
    | cons m ms =>
      rw [hq] at hm
      cases hm with
      | cons hmm hms =>
        have hd := deliver_agree hc hw hmm e b.answers
        refine ⟨?_, ⟨?_, rfl, hms⟩, hd.worlds⟩
        · dsimp only
          rw [hd.result]
        · dsimp only
          rw [hd.states]

theorem Mirrors.stall (h : b.Mirrors b') {m m' : Message} {ms ms' : List Message}
    (hq : b.queue.messages = m :: ms) (hq' : b'.queue.messages = m' :: ms') :
    (b.stall m).1 = (b'.stall m').1 ∧ (b.stall m).2.Mirrors (b'.stall m').2 := by
  rw [stall_of_front hq, stall_of_front hq']
  obtain ⟨hs, hl, hm⟩ := h
  rw [hq, hq'] at hm
  cases hm with
  | cons hmm hms =>
    have ha : m'.attempts = m.attempts := by rw [hmm.same]
    have hx : b'.maxAttempts = b.maxAttempts := by rw [hs]
    rw [ha, hx]
    split
    · refine ⟨rfl, ?_, hl, hms⟩
      dsimp only
      rw [hs]
    · refine ⟨rfl, ?_, hl, .cons ⟨?_, hmm.payload⟩ hms⟩
      · dsimp only
        rw [hs]
      · rw [hmm.same]

theorem Mirrors.dispatchCommand (h : b.Mirrors b') (hm : b.mode = .command) (hc : c.Blind R) (hw : R w w') :
    Agree Mirrors R (dispatchCommand c b w) (dispatchCommand c b' w') := by
  have hms := h.messages
  unfold Broker.dispatchCommand Queue.peek
  cases hq : b.queue.messages with
  | nil =>
    rw [hq] at hms
    generalize hq' : b'.queue.messages = ms' at hms
    cases hms
    exact ⟨rfl, h, hw⟩
  | cons m ms =>
    rw [hq] at hms
    generalize hq' : b'.queue.messages = ms' at hms
    cases hms with
    | @cons _ m' _ ms' hmm hms =>
      dsimp only
      have hr := (hm ▸ hmm.payload : Alike .command m.payload m'.payload).resolve b.commands
      have hb : b.commands.resolve m'.payload = b'.commands.resolve m'.payload := by rw [h.same]
      rw [hb] at hr
      have hst := h.stall hq hq'
      cases h1 : b.commands.resolve m.payload with
      | error f =>
        cases h2 : b'.commands.resolve m'.payload with
        | error f' => exact ⟨hst.1, hst.2, hw⟩
        | ok i' => rw [h1, h2] at hr; cases hr
      | ok i =>
        cases h2 : b'.commands.resolve m'.payload with
        | error f' => rw [h1, h2] at hr; cases hr
        | ok i' =>
          rw [h1, h2] at hr
          have hn : i.command.name = i'.command.name := Except.ok.inj hr
          have hs : b'.subscribers i'.command.name = b.subscribers i.command.name := by
            rw [h.same, hn]; rfl
          have ha : b'.answers = b.answers := by rw [h.same]
          have ho := offer_agree hc hmm (b.subscribers i.command.name) b.answers hw
          dsimp only
          rw [hs, ha, ← ho.result, ← ho.states]
          generalize offer c m (b.subscribers i.command.name) b.answers w = r at ho
          have hb' : Mirrors { b with answers := r.2.1 } { b' with answers := r.2.1 } :=
            ⟨by rw [h.same], h.lastSeq, h.messages⟩
          by_cases hz : r.1 = 0
          · rw [if_pos hz, if_pos hz]
            have hst := hb'.stall hq hq'
            exact ⟨hst.1, hst.2, ho.worlds⟩
          · rw [if_neg hz, if_neg hz]
            refine ⟨rfl, ?_, ho.worlds⟩
            simp only [Queue.removeFront, hq, hq', ite_true]
            exact ⟨by rw [h.same], h.lastSeq, hms⟩

theorem Mirrors.dispatch (h : b.Mirrors b') (hc : c.Blind R) (hw : R w w') :
    Agree Mirrors R (dispatch c b w) (dispatch c b' w') := by
  have hq : b'.queue.isEmpty = b.queue.isEmpty := by
    rw [Bool.eq_iff_iff, Queue.isEmpty, Queue.isEmpty, List.isEmpty_iff_length_eq_zero,
      List.isEmpty_iff_length_eq_zero, h.messages.length_eq]
  have hcs : b'.consumers = b.consumers := by rw [h.same]
  have hm : b'.mode = b.mode := by rw [h.same]
  unfold Broker.dispatch
  rw [hq, hcs, hm]
  split
  · exact ⟨rfl, h, hw⟩
  · cases hmode : b.mode with
    | direct => exact h.dispatchDirect hc hw
    | command => exact h.dispatchCommand hmode hc hw

/-! ## What is read -/

theorem Mirrors.connect (h : b.Mirrors b') (e : Endpoint) : (b.connect e).Mirrors (b'.connect e) := by
  refine ⟨?_, h.lastSeq, h.messages⟩
  rw [h.same]; rfl

theorem Mirrors.meet (h : b.Mirrors b') (e : Endpoint) : (b.meet e).Mirrors (b'.meet e) := by
  have hp : b'.peers = b.peers := by rw [h.same]
  unfold Broker.meet
  rw [hp]
  split
  · exact h
  · exact h.connect e

theorem Mirrors.disconnect (h : b.Mirrors b') (a : Address) : (b.disconnect a).Mirrors (b'.disconnect a) := by
  refine ⟨?_, h.lastSeq, h.messages⟩
  rw [h.same]; rfl

theorem Mirrors.registerConsumer (h : b.Mirrors b') (hc : c.Blind R) (hw : R w w') (e : Endpoint) :
    Agree Mirrors R (registerConsumer c b e w) (registerConsumer c b' e w') := by
  have hcs : b'.consumers = b.consumers := by rw [h.same]
  unfold Broker.registerConsumer
  rw [hcs]
  rcases b.consumers.add e with ⟨_ | _, consumers⟩
  · exact ⟨rfl, h, hw⟩
  · refine ⟨rfl, ⟨?_, h.lastSeq, h.messages⟩, hc.related e helloAck helloAck hw⟩
    rw [h.same]; rfl

theorem Mirrors.applyControl (h : b.Mirrors b') (consumer : Address) (control : Control) :
    (b.applyControl consumer control).1 = (b'.applyControl consumer control).1 ∧
      (b.applyControl consumer control).2.Mirrors (b'.applyControl consumer control).2 := by
  cases control with
  | subscribe command =>
    refine ⟨rfl, ?_, h.lastSeq, h.messages⟩
    rw [h.same]; rfl
  | unsubscribe command =>
    refine ⟨rfl, ?_, h.lastSeq, h.messages⟩
    rw [h.same]; rfl

theorem Mirrors.forward (h : b.Mirrors b') (hc : c.Blind R) (hw : R w w') (o : Origin) (payload : Bytes) :
    (forward c b o payload w).1 = (forward c b' o payload w').1 ∧
      R (forward c b o payload w).2 (forward c b' o payload w').2 := by
  have hp : b'.peers = b.peers := by rw [h.same]
  unfold Broker.forward findPeer
  rw [hp]
  cases b.peers.get? o.producer with
  | none => exact ⟨rfl, hw⟩
  | some e =>
    have hr := hc.result e (Packet.encode ⟨o.id, payload⟩) (Packet.encode ⟨o.id, payload⟩) hw
    have hv := hc.related e (Packet.encode ⟨o.id, payload⟩) (Packet.encode ⟨o.id, payload⟩) hw
    dsimp only
    generalize c.send w e (Packet.encode ⟨o.id, payload⟩) = r at hr hv
    generalize c.send w' e (Packet.encode ⟨o.id, payload⟩) = r' at hr hv
    rcases r with ⟨x, v⟩
    rcases r' with ⟨x', v'⟩
    obtain rfl : x = x' := hr
    cases x with
    | ok id => exact ⟨rfl, hv⟩
    | error f => exact ⟨rfl, hv⟩

theorem Mirrors.readConsumer (h : b.Mirrors b') (hc : c.Blind R) (hw : R w w') (consumer : Address)
    (data : Bytes) : Agree Mirrors R (readConsumer c b consumer data w) (readConsumer c b' consumer data w') := by
  have ha : b'.answers = b.answers := by rw [h.same]
  have hm : b'.mode = b.mode := by rw [h.same]
  unfold Broker.readConsumer
  rw [ha, hm]
  cases Packet.decode data with
  | error f =>
    dsimp only
    split
    · exact ⟨rfl, h, hw⟩
    · exact ⟨rfl, h, hw⟩
  | ok p =>
    dsimp only
    rcases b.answers.take ⟨consumer, p.id⟩ with ⟨f | o, answers⟩
    · dsimp only
      split
      · next control _ _ =>
        have hk := h.applyControl consumer control
        exact ⟨congrArg Except.ok hk.1, hk.2, hw⟩
      · exact ⟨rfl, h, hw⟩
    · have hf := h.forward hc hw o p.payload
      refine ⟨hf.1, ⟨?_, h.lastSeq, h.messages⟩, hf.2⟩
      dsimp only
      rw [h.same]

theorem Mirrors.enqueue (h : b.Mirrors b') (producer : Address) (id : UInt32) {data data' : Bytes}
    (hd : Alike b.mode data data') : (b.enqueue producer id data).1 = (b'.enqueue producer id data').1 ∧
      (b.enqueue producer id data).2.Mirrors (b'.enqueue producer id data').2 := by
  have ha : b'.allow data' = b.allow data := by
    rw [hd.allow, h.same]; rfl
  unfold Broker.enqueue
  rw [ha]
  cases b.allow data with
  | error f => exact ⟨rfl, h⟩
  | ok _ =>
    simp only [Queue.enqueue, h.lastSeq]
    refine ⟨trivial, ?_, rfl, ?_⟩
    · rw [h.same]; rfl
    · exact List.rel_append h.messages (.cons ⟨rfl, hd⟩ .nil)

/-- A payload that is no hello, from an address that is not registered, in place of another. -/
structure Substitutes (b : Broker) (e : Endpoint) (data data' : Bytes) : Prop where
  no_hello : data ≠ hello ∧ data' ≠ hello
  unregistered : b.consumers.contains e.address = false
  alike : Alike b.mode data data'

theorem Mirrors.handleData (h : b.Mirrors b') (hc : c.Blind R) (hw : R w w') (e : Endpoint) (id : UInt32)
    {data data' : Bytes} (hd : data = data' ∨ b.Substitutes e data data') :
    Agree Mirrors R (handleData c b e id data w) (handleData c b' e id data' w') := by
  have hmeet := h.meet e
  have hcs : (b'.meet e).consumers = (b.meet e).consumers := by rw [hmeet.same]
  have enqueues : Alike b.mode data data' → Agree Mirrors R
      (((b.meet e).enqueue e.address id data).1, ((b.meet e).enqueue e.address id data).2, w)
      (((b'.meet e).enqueue e.address id data').1, ((b'.meet e).enqueue e.address id data').2, w') := by
    intro hal
    have he := hmeet.enqueue e.address id (by rwa [meet_mode])
    exact ⟨he.1, he.2, hw⟩
  unfold Broker.handleData
  rcases hd with rfl | hs
  · dsimp only
    rw [hcs]
    split
    · exact hmeet.registerConsumer hc hw e
    · split
      · exact hmeet.readConsumer hc hw e.address data
      · exact enqueues (.inl rfl)
  · have hn : (b.meet e).consumers.contains e.address = false := by
      rw [meet_consumers]; exact hs.unregistered
    simp only [hs.no_hello.1, hs.no_hello.2, hcs, hn, ite_false, Bool.false_eq_true]
    exact enqueues hs.alike

end

/-! ## Turns -/

/-- An operation in place of another: at most, a request is substituted. -/
inductive Operation.Mirrors (b : Broker) : Operation → Operation → Prop
  | same (op : Operation) : Mirrors b op op
  | data {e : Endpoint} {data data' : Bytes} (id : UInt32) (h : b.Substitutes e data data') :
      Mirrors b (.data e id data) (.data e id data')
  | event {e : Endpoint} {data data' : Bytes} (id : UInt32) (h : b.Substitutes e data data') :
      Mirrors b (.event e (.received id data)) (.event e (.received id data'))

/-- Outcomes that are equal but for the request that was substituted. -/
inductive Outcome.Mirrors (b : Broker) : Outcome → Outcome → Prop
  | same (o : Outcome) : Mirrors b o o
  | read {e : Endpoint} {data data' : Bytes} (id : UInt32) (r : Except Failure Inbound)
      (h : b.Substitutes e data data') : Mirrors b (.read e id data r) (.read e id data' r)

structure Turn.Mirrors (t t' : Turn) : Prop where
  before : t.before.Mirrors t'.before
  outcome : t.outcome.Mirrors t.before t'.outcome
  sent : t.sent.map (·.fate) = t'.sent.map (·.fate)
  after : t.after.Mirrors t'.after

section
variable {ω : Type} {c : Carrier ω} {R : ω → ω → Prop} {w w' : ω} {b b' : Broker} {op op' : Operation}

theorem turn_recorded (c : Carrier ω) (w : ω) (b : Broker) (op : Operation) :
    (b.turn c w op).after = (b.perform c.recorded (w, []) op).1 ∧
      (b.turn c w op).sent = (b.perform c.recorded (w, []) op).2.2 := by
  cases op with
  | event e event => cases event <;> exact ⟨rfl, rfl⟩
  | _ => exact ⟨rfl, rfl⟩

theorem Mirrors.perform (h : b.Mirrors b') (hc : c.Blind R) (hw : R w w') (hop : op.Mirrors b op') :
    (b.perform c w op).1.Mirrors (b'.perform c w' op').1 ∧
      R (b.perform c w op).2 (b'.perform c w' op').2 := by
  have reads : ∀ e id {data data'}, data = data' ∨ b.Substitutes e data data' →
      (Broker.handleData c b e id data w).2.1.Mirrors (Broker.handleData c b' e id data' w').2.1 ∧
        R (Broker.handleData c b e id data w).2.2 (Broker.handleData c b' e id data' w').2.2 := by
    intro e id data data' hd
    have ha := h.handleData hc hw e id hd
    exact ⟨ha.states, ha.worlds⟩
  cases hop with
  | data id hs => exact reads _ id (.inr hs)
  | event id hs => exact reads _ id (.inr hs)
  | same =>
    cases op with
    | event e event =>
      cases event with
      | connected => exact ⟨h.connect e, hw⟩
      | disconnected => exact ⟨h.disconnect e.address, hw⟩
      | received id data => exact reads e id (.inl rfl)
    | data e id data => exact reads e id (.inl rfl)
    | disconnect a => exact ⟨h.disconnect a, hw⟩
    | pass =>
      have ha := h.dispatch hc hw
      exact ⟨ha.states, ha.worlds⟩
    | resume =>
      refine ⟨⟨?_, h.lastSeq, h.messages⟩, hw⟩
      simp only [Broker.perform]
      rw [h.same]
    | recatalogue commands =>
      refine ⟨⟨?_, h.lastSeq, h.messages⟩, hw⟩
      simp only [Broker.perform]
      rw [h.same]

theorem Mirrors.outcome (h : b.Mirrors b') (hc : c.Blind R) (hw : R w w') (hop : op.Mirrors b op') :
    (b.turn c w op).outcome.Mirrors b (b'.turn c w' op').outcome := by
  have hr := hc.recorded
  have hw0 : RecordsAlike R (w, []) (w', []) := ⟨hw, rfl⟩
  cases hop with
  | data id hs =>
    simp only [turn]
    rw [(h.handleData hr hw0 _ id (.inr hs)).result]
    exact .read id _ hs
  | event id hs =>
    simp only [turn, eventOutcome]
    rw [(h.handleData hc hw _ id (.inr hs)).result]
    exact .read id _ hs
  | same =>
    cases op with
    | event e event =>
      cases event with
      | received id data =>
        simp only [turn, eventOutcome]
        rw [(h.handleData hc hw e id (.inl rfl)).result]
        exact .same _
      | _ => exact .same _
    | data e id data =>
      simp only [turn]
      rw [(h.handleData hr hw0 e id (.inl rfl)).result]
      exact .same _
    | pass =>
      simp only [turn]
      rw [(h.dispatch hr hw0).result]
      exact .same _
    | _ => exact .same _

theorem Mirrors.turn (h : b.Mirrors b') (hc : c.Blind R) (hw : R w w') (hop : op.Mirrors b op') :
    (b.turn c w op).Mirrors (b'.turn c w' op') := by
  obtain ⟨ha, hs⟩ := turn_recorded c w b op
  obtain ⟨ha', hs'⟩ := turn_recorded c w' b' op'
  have hw0 : RecordsAlike R (w, []) (w', []) := ⟨hw, rfl⟩
  have hp := h.perform hc.recorded hw0 hop
  refine ⟨?_, ?_, ?_, ?_⟩
  · rwa [turn_before, turn_before]
  · rw [turn_before]
    exact h.outcome hc hw hop
  · rw [hs, hs']
    exact hp.2.2
  · rw [ha, ha']
    exact hp.1

end

/-! ## Pairs of runs -/

/-- Two runs from `start` over one carrier, with operations that differ in substituted requests at most.
Between two operations the connections may change elsewhere. -/
inductive Pair {ω : Type} (c : Carrier ω) (R : ω → ω → Prop) (start : Broker) :
    List Turn → Broker → ω → List Turn → Broker → ω → Prop
  | start {w w' : ω} (hw : R w w') : Pair c R start [] start w [] start w'
  | next {turns turns' : List Turn} {b b' : Broker} {w w' : ω} {op op' : Operation}
      (h : Pair c R start turns b w turns' b' w') (hop : op.Mirrors b op') :
      Pair c R start (turns ++ [b.turn c w op]) (b.perform c w op).1 (b.perform c w op).2
        (turns' ++ [b'.turn c w' op']) (b'.perform c w' op').1 (b'.perform c w' op').2
  | elsewhere {turns turns' : List Turn} {b b' : Broker} {w w' v v' : ω}
      (h : Pair c R start turns b w turns' b' w') (hv : R v v') : Pair c R start turns b v turns' b' v'

section
variable {ω : Type} {c : Carrier ω} {R : ω → ω → Prop} {w w' : ω} {start b b' : Broker}
  {turns turns' : List Turn}

theorem Pair.runs (h : Pair c R start turns b w turns' b' w') : Run start turns b ∧ Run start turns' b' := by
  induction h with
  | start hw => exact ⟨.start, .start⟩
  | @next turns turns' b b' w w' op op' h hop ih =>
    rw [← (turn_performs c w b op).1, ← (turn_performs c w' b' op').1]
    exact ⟨ih.1.next c w op, ih.2.next c w' op'⟩
  | elsewhere h hv ih => exact ih

theorem Pair.mirrors (h : Pair c R start turns b w turns' b' w') (hc : c.Blind R) (h0 : start.Mirrors start) :
    List.Forall₂ Turn.Mirrors turns turns' ∧ b.Mirrors b' ∧ R w w' := by
  induction h with
  | start hw => exact ⟨.nil, h0, hw⟩
  | next h hop ih =>
    obtain ⟨ht, hb, hw⟩ := ih
    obtain ⟨hb', hw'⟩ := hb.perform hc hw hop
    exact ⟨List.rel_append ht (.cons (hb.turn hc hw hop) .nil), hb', hw'⟩
  | elsewhere h hv ih => exact ⟨ih.1, ih.2.1, hv⟩

end

/-! ## Where the payloads come from -/

/-- Two messages that turns at one position of two runs put into the queue. -/
def Counterparts (turns turns' : List Turn) (m m' : Message) : Prop :=
  ∃ p ∈ turns.zip turns', p.1.enqueued? = some m ∧ p.2.enqueued? = some m'

section
variable {t t' : Turn} {turns turns' : List Turn}

theorem Turn.Mirrors.enqueues (h : t.Mirrors t') : t.enqueued?.isSome = t'.enqueued?.isSome := by
  have ho := h.outcome
  unfold Turn.enqueued?
  generalize t.outcome = o at ho ⊢
  generalize t'.outcome = o' at ho ⊢
  cases ho with
  | same => rfl
  | read id r hs =>
    split
    · next ho =>
      cases ho
      rfl
    · next hn =>
      split
      · next ho =>
        cases ho
        exact absurd rfl (hn _ _ _ _)
      · rfl

theorem Turn.Mirrors.removes (h : t.Mirrors t') : t.removed?.isSome = t'.removed?.isSome := by
  have hm := h.before.messages
  have ho := h.outcome
  unfold Turn.removed?
  generalize t.outcome = o at ho ⊢
  generalize t'.outcome = o' at ho ⊢
  cases ho with
  | read id r hs => rfl
  | same =>
    cases o with
    | passed p =>
      dsimp only
      generalize t.before.queue.messages = ms at hm ⊢
      generalize t'.before.queue.messages = ms' at hm ⊢
      split
      · cases hm <;> rfl
      · rfl
    | _ => rfl

theorem counterparts_accepted (h : List.Forall₂ Turn.Mirrors turns turns') :
    List.Forall₂ (Counterparts turns turns') (accepted turns) (accepted turns') := by
  induction h with
  | nil => exact .nil
  | @cons t t' turns turns' ht h ih =>
    have mono : ∀ m m', Counterparts turns turns' m m' → Counterparts (t :: turns) (t' :: turns') m m' := by
      rintro m m' ⟨p, hp, hm⟩
      exact ⟨p, List.mem_cons_of_mem _ hp, hm⟩
    have he := ht.enqueues
    unfold accepted at ih ⊢
    rw [List.filterMap_cons, List.filterMap_cons]
    cases hm : t.enqueued? with
    | none =>
      cases hm' : t'.enqueued? with
      | none => exact ih.imp mono
      | some m' => rw [hm, hm'] at he; cases he
    | some m =>
      cases hm' : t'.enqueued? with
      | none => rw [hm, hm'] at he; cases he
      | some m' => exact .cons ⟨(t, t'), List.mem_cons_self .., hm, hm'⟩ (ih.imp mono)

theorem length_removed (h : List.Forall₂ Turn.Mirrors turns turns') :
    (removed turns).length = (removed turns').length := by
  induction h with
  | nil => rfl
  | @cons t t' turns turns' ht h ih =>
    have hr := ht.removes
    unfold removed at ih ⊢
    rw [List.filterMap_cons, List.filterMap_cons]
    cases hm : t.removed? <;> cases hm' : t'.removed? <;> simp_all

theorem map_request_accepted : ∀ turns : List Turn, (accepted turns).map (·.request) = accepted turns := by
  intro turns
  refine (List.map_congr_left ?_).trans (List.map_id _)
  intro m hm
  obtain ⟨t, -, ht⟩ := List.mem_filterMap.mp hm
  unfold Turn.enqueued? at ht
  split at ht
  · cases ht; rfl
  · cases ht

end

section
variable {ω : Type} {c : Carrier ω} {R : ω → ω → Prop} {w w' : ω} {mode : DispatchMode}
  {commands : Catalogue} {maxAttempts : UInt32} {b b' : Broker} {turns turns' : List Turn}

/-- What is queued in one run is, message by message, what the same turns queued in the other. -/
theorem Pair.counterparts (h : Pair c R (fresh mode commands maxAttempts) turns b w turns' b' w')
    (hc : c.Blind R) : List.Forall₂ (Counterparts turns turns') b.requests b'.requests := by
  obtain ⟨ht, -, -⟩ := h.mirrors hc (mirrors_fresh mode commands maxAttempts)
  obtain ⟨hr, hr'⟩ := h.runs
  have ha := hr.accepted_eq
  have ha' := hr'.accepted_eq
  rw [map_request_accepted] at ha ha'
  have hd := List.forall₂_drop (removed turns).length (counterparts_accepted ht)
  rw [ha, ha', List.drop_left' (by simp), List.drop_left' (by simp [length_removed ht])] at hd
  exact hd

/-- **Routing is oblivious to bodies.** Turn by turn, two runs that differ in substituted requests come to
the same results, copies, tables and counts, and their queues differ in the substituted payloads only. -/
theorem Pair.oblivious (h : Pair c R (fresh mode commands maxAttempts) turns b w turns' b' w')
    (hc : c.Blind R) : List.Forall₂ Turn.Mirrors turns turns' ∧ b.Mirrors b' ∧ b.stats = b'.stats ∧
      List.Forall₂ (Counterparts turns turns') b.requests b'.requests := by
  obtain ⟨ht, hb, -⟩ := h.mirrors hc (mirrors_fresh mode commands maxAttempts)
  exact ⟨ht, hb, hb.stats, h.counterparts hc⟩

end

/-- Of two callers of a command, one sends another parameter. Its consumer gets that, under the same id. -/
theorem oblivious_parameter : ∃ (c : Carrier UInt32) (turns turns' : List Turn) (b b' : Broker),
    c.Blind Eq ∧ (∃ w w', Pair c Eq (fresh .command (.ofNames ["ping"])) turns b w turns' b' w') ∧
    List.Forall₂ Turn.Mirrors turns turns' ∧ b.stats = b'.stats ∧ b.stats = ⟨1, 1, 1, 1, 2⟩ ∧
    (turns.flatMap (·.sent)).map (·.data) = [helloAck, toBytes "ping/é"] ∧
    (turns'.flatMap (·.sent)).map (·.data) = [helloAck, toBytes "ping"] := by
  let c : Carrier UInt32 := ⟨fun w _ _ => (.ok w, w + 1)⟩
  let worker : Endpoint := ⟨"worker", 0, .far⟩
  let asker : Endpoint := ⟨"asker", 1, .far⟩
  have hc : c.Blind Eq := ⟨fun _ _ _ h => by rw [h], fun _ _ _ h => by rw [h]⟩
  have h0 : Pair c Eq (fresh .command (.ofNames ["ping"])) [] (fresh .command (.ofNames ["ping"])) 1
    [] (fresh .command (.ofNames ["ping"])) 1 := .start rfl
  have h1 := (h0.next (.same (.data worker 1 hello))).next
    (.same (.data worker 2 (Control.subscribe "ping").toBytes))
  have hal : Alike .command (toBytes "ping/é") (toBytes "ping") :=
    .inr fun _ => ⟨⟨"ping", ["é"]⟩, ⟨"ping", []⟩, by decide +kernel, by decide +kernel, rfl⟩
  have h2 := h1.next (.data (e := asker) 3 ⟨by decide +kernel, by decide +kernel, hal⟩)
  have h3 := (h2.next (.same (.data asker 4 (toBytes "ping")))).next (.same .pass)
  obtain ⟨turns, turns', b, b', ⟨w, w', h⟩, hb, hs, hs'⟩ : ∃ turns turns' b b',
      (∃ w w', Pair c Eq (fresh .command (.ofNames ["ping"])) turns b w turns' b' w') ∧
      b.stats = ⟨1, 1, 1, 1, 2⟩ ∧
      (turns.flatMap (·.sent)).map (·.data) = [helloAck, toBytes "ping/é"] ∧
      (turns'.flatMap (·.sent)).map (·.data) = [helloAck, toBytes "ping"] :=
    ⟨_, _, _, _, ⟨_, _, h3⟩, by decide +kernel, by decide +kernel, by decide +kernel⟩
  obtain ⟨ht, -, hst, -⟩ := h.oblivious hc
  exact ⟨c, turns, turns', b, b', hc, ⟨w, w', h⟩, ht, hst, hb, hs, hs'⟩

end Broker

end Switchboard
