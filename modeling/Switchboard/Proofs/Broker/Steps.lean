import Switchboard.Broker.Dispatch
import Switchboard.Broker.Reader
import Switchboard.Proofs.Carrier
import Switchboard.Proofs.Queue

/-!
# What one operation of the broker can do

`Passes` lists the cases of a dispatch pass and `Reads` those of a payload that is read, each with its
guard, with what is sent and with the broker afterwards. `dispatch_passes` and `handleData_reads` say
that there are no others, and that a recording carrier changes nothing but the record.
-/

namespace Switchboard

/-- Where the answer to a message goes. -/
def Message.origin (m : Message) : Origin := ⟨m.producer, m.producerId⟩

/-- A datagram that was accepted, as a delivery to the peer it went to. -/
def Sending.delivery? (s : Sending) : Option Delivery :=
  match s.result with
  | .ok id => some ⟨s.endpoint.address, id⟩
  | .error _ => none

theorem Sending.delivery?_eq_some {s : Sending} {d : Delivery} :
    s.delivery? = some d ↔ s.result = .ok d.id ∧ s.endpoint.address = d.consumer := by
  unfold delivery?
  cases s.result with
  | ok id =>
    constructor
    · intro h
      cases h
      exact ⟨rfl, rfl⟩
    · rintro ⟨hid, ha⟩
      rw [Except.ok.inj hid, ha]
  | error f =>
    constructor
    · intro h; cases h
    · rintro ⟨hid, -⟩; cases hid

namespace Correlations

theorem get?_recordSent (t : Correlations) (s : Sending) (o : Origin) (d : Delivery) :
    (t.recordSent s.endpoint.address o s.result).get? d = if s.delivery? = some d then some o else t.get? d := by
  obtain ⟨e, data, r⟩ := s
  cases r with
  | error f => simp [recordSent, Sending.delivery?]
  | ok id =>
    simp only [recordSent, record, get?, Dictionary.get?_insert, Sending.delivery?, Option.some.injEq]
    by_cases hd : d = ⟨e.address, id⟩
    · simp [hd]
    · simp [hd, Ne.symm hd]

/-- Record the copies of a request that were accepted, from left to right. -/
def recordAll (t : Correlations) (o : Origin) (sent : List Sending) : Correlations :=
  sent.foldl (fun t s => t.recordSent s.endpoint.address o s.result) t

theorem recordAll_of_refused {o : Origin} : ∀ {sent : List Sending} (t : Correlations),
    copies sent = 0 → t.recordAll o sent = t
  | [], _, _ => rfl
  | ⟨e, data, .ok id⟩ :: sent, t, h => by simp [copies, Except.isOk, Except.toBool] at h
  | ⟨e, data, .error f⟩ :: sent, t, h => by
    have h' : copies sent = 0 := by simpa [copies, Except.isOk, Except.toBool] using h
    have ih : t.recordAll o sent = t := recordAll_of_refused t h'
    exact ih

end Correlations

namespace Broker

variable {ω : Type}

/-! ## Passes -/

/-- What a pass in command mode offers of its front message: a copy to every subscriber, or nothing
when the message is no command of the catalogue. -/
def Offers (b : Broker) (m : Message) (sent : List Sending) : Prop :=
  match b.commands.resolve m.payload with
  | .error _ => sent = []
  | .ok invocation =>
    sent.map (·.endpoint) = b.subscribers invocation.command.name ∧ ∀ s ∈ sent, s.data = m.payload

inductive Passes (b : Broker) : List Sending → Pass → Broker → Prop
  | idle (h : b.queue.messages = [] ∨ b.consumers.entries = []) : Passes b [] .idle b
  | direct {m : Message} {ms : List Message} {e : Endpoint} (hm : b.mode = .direct)
      (hq : b.queue.messages = m :: ms) (he : b.consumers.entries[b.consumers.turn]? = some e)
      (r : Except Failure UInt32) :
      Passes b [⟨e, m.payload, r⟩] (if r.isOk then .dispatched 1 else .dropped)
        { b with
          consumers := { b.consumers with cursor := b.consumers.turn + 1 }
          queue := { b.queue with messages := ms }
          answers := b.answers.recordAll m.origin [⟨e, m.payload, r⟩] }
  | dispatched {m : Message} {ms : List Message} {sent : List Sending} (hm : b.mode = .command)
      (hq : b.queue.messages = m :: ms) (hs : b.Offers m sent) (ha : 0 < copies sent) :
      Passes b sent (.dispatched (copies sent))
        { b with
          queue := { b.queue with messages := ms }
          answers := b.answers.recordAll m.origin sent }
  | dropped {m : Message} {ms : List Message} {sent : List Sending} (hm : b.mode = .command)
      (hq : b.queue.messages = m :: ms) (hs : b.Offers m sent) (ha : copies sent = 0)
      (hl : 0 < b.maxAttempts ∧ b.maxAttempts ≤ m.attempts + 1) :
      Passes b sent .dropped { b with queue := { b.queue with messages := ms } }
  | stalled {m : Message} {ms : List Message} {sent : List Sending} (hm : b.mode = .command)
      (hq : b.queue.messages = m :: ms) (hs : b.Offers m sent) (ha : copies sent = 0)
      (hl : ¬ (0 < b.maxAttempts ∧ b.maxAttempts ≤ m.attempts + 1)) :
      Passes b sent .stalled
        { b with queue := { b.queue with messages := { m with attempts := m.attempts + 1 } :: ms } }

theorem offer_sends (c : Carrier ω) (m : Message) : ∀ (es : List Endpoint) (t : Correlations) (w : ω),
    ∃ sent w', c.Sends w sent w' ∧ offer c m es t w = (copies sent, t.recordAll m.origin sent, w') ∧
      (∀ log, offer c.recorded m es t (w, log) =
        (copies sent, t.recordAll m.origin sent, w', log ++ sent)) ∧
      sent.map (·.endpoint) = es ∧ ∀ s ∈ sent, s.data = m.payload
  | [], t, w => ⟨[], w, .nil w, rfl, fun log => by simp [offer, copies, Correlations.recordAll], rfl, by simp⟩
  | e :: es, t, w => by
    obtain ⟨sent, w', hs, ho, hr, he, hd⟩ := offer_sends c m es
      (t.recordSent e.address m.origin (c.send w e m.payload).1) (c.send w e m.payload).2
    refine ⟨⟨e, m.payload, (c.send w e m.payload).1⟩ :: sent, w', .cons hs, ?_, fun log => ?_, ?_, ?_⟩
    · have : offer c m (e :: es) t w = (copies sent + (c.send w e m.payload).1.isOk.toNat,
          (t.recordSent e.address m.origin (c.send w e m.payload).1).recordAll m.origin sent, w') := by
        simp only [offer, deliver]
        rw [show (⟨m.producer, m.producerId⟩ : Origin) = m.origin from rfl, ho]
      rw [this]
      cases (c.send w e m.payload).1 <;> simp [copies, Correlations.recordAll, Except.isOk, Except.toBool]
    · have : offer c.recorded m (e :: es) t (w, log) = (copies sent + (c.send w e m.payload).1.isOk.toNat,
          (t.recordSent e.address m.origin (c.send w e m.payload).1).recordAll m.origin sent, w',
          log ++ [⟨e, m.payload, (c.send w e m.payload).1⟩] ++ sent) := by
        simp only [offer, deliver, Carrier.recorded_send]
        rw [show (⟨m.producer, m.producerId⟩ : Origin) = m.origin from rfl, hr]
      rw [this]
      cases (c.send w e m.payload).1 <;> simp [copies, Correlations.recordAll, Except.isOk, Except.toBool]
    · simp [he]
    · intro s hs
      rcases List.mem_cons.mp hs with rfl | hs
      · rfl
      · exact hd s hs

theorem stall_of_front {b : Broker} {m : Message} {ms : List Message} (hq : b.queue.messages = m :: ms) :
    b.stall m = if 0 < b.maxAttempts ∧ b.maxAttempts ≤ m.attempts + 1
      then (.dropped, { b with queue := { b.queue with messages := ms } })
      else (.stalled,
        { b with queue := { b.queue with messages := { m with attempts := m.attempts + 1 } :: ms } }) := by
  unfold stall Queue.recordAttempt
  simp only [hq, ite_true]
  split
  · simp [Queue.removeFront]
  · rfl

theorem dispatchDirect_passes (c : Carrier ω) {b : Broker} (w : ω) (hm : b.mode = .direct) {m : Message}
    {ms : List Message} (hq : b.queue.messages = m :: ms) (hc : b.consumers.entries ≠ []) :
    ∃ sent p b' w', c.Sends w sent w' ∧ dispatchDirect c b w = (p, b', w') ∧
      (∀ log, dispatchDirect c.recorded b (w, log) = (p, b', w', log ++ sent)) ∧ Passes b sent p b' := by
  have ht : b.consumers.turn < b.consumers.entries.length := by
    have := List.length_pos_iff.mpr hc
    unfold Roster.turn; split <;> assumption
  have he : b.consumers.entries[b.consumers.turn]? = some b.consumers.entries[b.consumers.turn] :=
    List.getElem?_eq_getElem ht
  generalize b.consumers.entries[b.consumers.turn] = e at he
  have hn : b.consumers.next = (.ok e, { b.consumers with cursor := b.consumers.turn + 1 }) := by
    unfold Roster.next; rw [he]
  have hd : b.queue.dequeue = (.ok m, { b.queue with messages := ms }) := by
    unfold Queue.dequeue; rw [hq]
  refine ⟨_, _, _, _, .single c w e m.payload, ?_, fun log => ?_, .direct hm hq he (c.send w e m.payload).1⟩
  · unfold dispatchDirect; rw [hn, hd]; rfl
  · unfold dispatchDirect; rw [hn, hd]; rfl

theorem dispatchCommand_passes (c : Carrier ω) {b : Broker} (w : ω) (hm : b.mode = .command) {m : Message}
    {ms : List Message} (hq : b.queue.messages = m :: ms) :
    ∃ sent p b' w', c.Sends w sent w' ∧ dispatchCommand c b w = (p, b', w') ∧
      (∀ log, dispatchCommand c.recorded b (w, log) = (p, b', w', log ++ sent)) ∧ Passes b sent p b' := by
  have hp : b.queue.peek = .ok m := by unfold Queue.peek; rw [hq]
  have stalls : ∀ {sent : List Sending}, b.Offers m sent → copies sent = 0 →
      Passes b sent (b.stall m).1 (b.stall m).2 := by
    intro sent hs ha
    rw [stall_of_front hq]
    split
    · next hl => exact .dropped hm hq hs ha hl
    · next hl => exact .stalled hm hq hs ha hl
  unfold dispatchCommand
  simp only [hp]
  cases hr : b.commands.resolve m.payload with
  | error f =>
    refine ⟨[], _, _, w, .nil w, rfl, fun log => by simp, stalls ?_ rfl⟩
    unfold Offers; rw [hr]
  | ok invocation =>
    obtain ⟨sent, w', hs, ho, hrec, he, hd⟩ :=
      offer_sends c m (b.subscribers invocation.command.name) b.answers w
    have hof : b.Offers m sent := by unfold Offers; rw [hr]; exact ⟨he, hd⟩
    simp only [ho, hrec]
    by_cases ha : copies sent = 0
    · simp only [ha, ite_true, Correlations.recordAll_of_refused _ ha]
      exact ⟨sent, _, _, w', hs, rfl, fun _ => rfl, stalls hof ha⟩
    · have hf : b.queue.removeFront m.seq = (.ok m, { b.queue with messages := ms }) := by
        unfold Queue.removeFront; simp [hq]
      simp only [ha, ite_false, hf]
      exact ⟨sent, _, _, w', hs, rfl, fun _ => rfl, .dispatched hm hq hof (Nat.pos_of_ne_zero ha)⟩

theorem dispatch_passes (c : Carrier ω) (b : Broker) (w : ω) :
    ∃ sent p b' w', c.Sends w sent w' ∧ dispatch c b w = (p, b', w') ∧
      (∀ log, dispatch c.recorded b (w, log) = (p, b', w', log ++ sent)) ∧ Passes b sent p b' := by
  unfold dispatch Queue.isEmpty Roster.isEmpty
  cases hq : b.queue.messages with
  | nil => exact ⟨[], _, _, w, .nil w, rfl, fun log => by simp, .idle (.inl hq)⟩
  | cons m ms =>
    cases hc : b.consumers.entries with
    | nil => exact ⟨[], _, _, w, .nil w, rfl, fun log => by simp, .idle (.inr hc)⟩
    | cons e es =>
      simp only [List.isEmpty_cons, Bool.or_self, Bool.false_eq_true, ite_false]
      cases hm : b.mode with
      | direct => exact dispatchDirect_passes c w hm hq (by simp [hc])
      | command => exact dispatchCommand_passes c w hm hq

section
variable {b b' : Broker} {sent : List Sending} {p : Pass}

/-- The endpoints of a pass are those of registered consumers, each at most once. -/
theorem Passes.endpoints_sublist (hp : Passes b sent p b') :
    (sent.map (·.endpoint)).Sublist b.consumers.entries := by
  have offered : ∀ {m : Message}, b.Offers m sent → (sent.map (·.endpoint)).Sublist b.consumers.entries := by
    intro m hs
    unfold Offers at hs
    split at hs
    · rw [hs]; exact List.nil_sublist _
    · rw [hs.1]; exact List.filter_sublist
  cases hp with
  | idle hi => exact List.nil_sublist _
  | direct hm hq he r => exact List.singleton_sublist.mpr (List.mem_of_getElem? he)
  | dispatched hm hq hs ha => exact offered hs
  | dropped hm hq hs ha hl => exact offered hs
  | stalled hm hq hs ha hl => exact offered hs

theorem Passes.data (hp : Passes b sent p b') {s : Sending} (hs : s ∈ sent) :
    ∃ m, b.queue.messages.head? = some m ∧ s.data = m.payload := by
  have offered : ∀ {m : Message}, b.Offers m sent → s.data = m.payload := by
    intro m ho
    unfold Offers at ho
    split at ho
    · rw [ho] at hs; cases hs
    · exact ho.2 s hs
  cases hp with
  | idle hi => cases hs
  | direct hm hq he r =>
    rw [List.mem_singleton.mp hs]
    exact ⟨_, by rw [hq]; rfl, rfl⟩
  | dispatched hm hq ho ha => exact ⟨_, by rw [hq]; rfl, offered ho⟩
  | dropped hm hq ho ha hl => exact ⟨_, by rw [hq]; rfl, offered ho⟩
  | stalled hm hq ho ha hl => exact ⟨_, by rw [hq]; rfl, offered ho⟩

end

/-! ## Payloads -/

@[simp] theorem meet_mode (b : Broker) (e : Endpoint) : (b.meet e).mode = b.mode := by
  unfold meet; split <;> rfl

@[simp] theorem meet_maxAttempts (b : Broker) (e : Endpoint) : (b.meet e).maxAttempts = b.maxAttempts := by
  unfold meet; split <;> rfl

@[simp] theorem meet_commands (b : Broker) (e : Endpoint) : (b.meet e).commands = b.commands := by
  unfold meet; split <;> rfl

@[simp] theorem meet_queue (b : Broker) (e : Endpoint) : (b.meet e).queue = b.queue := by
  unfold meet; split <;> rfl

@[simp] theorem meet_consumers (b : Broker) (e : Endpoint) : (b.meet e).consumers = b.consumers := by
  unfold meet; split <;> rfl

@[simp] theorem meet_answers (b : Broker) (e : Endpoint) : (b.meet e).answers = b.answers := by
  unfold meet; split <;> rfl

@[simp] theorem meet_subscriptions (b : Broker) (e : Endpoint) :
    (b.meet e).subscriptions = b.subscriptions := by
  unfold meet; split <;> rfl

@[simp] theorem meet_woken (b : Broker) (e : Endpoint) : (b.meet e).woken = b.woken := by
  unfold meet; split <;> rfl

theorem meet_of_known {b : Broker} {e e' : Endpoint} (h : b.peers.get? e.address = some e') :
    b.meet e = b := by
  unfold meet
  rw [if_pos ((b.peers.contains_iff _).mpr ⟨e', h⟩)]

theorem meet_get? (b : Broker) (e : Endpoint) (a : Address) : (b.meet e).peers.get? a =
    if a = e.address ∧ b.peers.get? a = none then some e else b.peers.get? a := by
  unfold meet
  by_cases hc : b.peers.contains e.address = true
  · obtain ⟨e', he⟩ := (b.peers.contains_iff _).mp hc
    rw [if_pos hc, if_neg]
    rintro ⟨rfl, hn⟩
    rw [he] at hn; cases hn
  · rw [if_neg hc]
    simp only [connect, Dictionary.get?_insert]
    by_cases ha : a = e.address
    · subst ha
      have : b.peers.get? e.address = none := by
        cases h : b.peers.get? e.address with
        | none => rfl
        | some e' => exact absurd ((b.peers.contains_iff _).mpr ⟨e', h⟩) hc
      simp [this]
    · simp [ha]

inductive Reads (b : Broker) (e : Endpoint) (id : UInt32) (data : Bytes) :
    List Sending → Except Failure Inbound → Broker → Prop
  | duplicate (hh : data = hello) (hc : b.consumers.contains e.address = true) :
      Reads b e id data [] (.error .consumerAlreadyExists) (b.meet e)
  | registered (hh : data = hello) (hc : b.consumers.contains e.address = false)
      (r : Except Failure UInt32) :
      Reads b e id data [⟨e, helloAck, r⟩] (.ok .registered)
        { b.meet e with
          consumers := { b.consumers with
            entries := b.consumers.entries ++ [e]
            index := e.address :: b.consumers.index }
          woken := true }
  | malformed {f : Failure} (hh : data ≠ hello) (hc : b.consumers.contains e.address = true)
      (hp : Packet.decode data = .error f) :
      Reads b e id data [] (if data = apiHandshake then .ok .apiHandshake else .error f) (b.meet e)
  | unreachable {p : Packet} {o : Origin} (hh : data ≠ hello)
      (hc : b.consumers.contains e.address = true) (hp : Packet.decode data = .ok p)
      (ho : b.answers.get? ⟨e.address, p.id⟩ = some o) (hn : (b.meet e).peers.get? o.producer = none) :
      Reads b e id data [] (.error (.peerNotFound o.producer))
        { b.meet e with answers := ⟨b.answers.records.erase ⟨e.address, p.id⟩⟩ }
  | forwarded {p : Packet} {o : Origin} {peer : Endpoint} (hh : data ≠ hello)
      (hc : b.consumers.contains e.address = true) (hp : Packet.decode data = .ok p)
      (ho : b.answers.get? ⟨e.address, p.id⟩ = some o) (hn : (b.meet e).peers.get? o.producer = some peer)
      (r : Except Failure UInt32) :
      Reads b e id data [⟨peer, Packet.encode ⟨o.id, p.payload⟩, r⟩]
        (r.map fun _ => .forwarded o.producer o.id)
        { b.meet e with answers := ⟨b.answers.records.erase ⟨e.address, p.id⟩⟩ }
  | controlled {p : Packet} {control : Control} (hh : data ≠ hello)
      (hc : b.consumers.contains e.address = true) (hp : Packet.decode data = .ok p)
      (ho : b.answers.get? ⟨e.address, p.id⟩ = none) (hm : b.mode = .command)
      (hk : Control.ofBytes? data = some control) :
      Reads b e id data [] (.ok ((b.meet e).applyControl e.address control).1)
        ((b.meet e).applyControl e.address control).2
  | unmatched {p : Packet} (hh : data ≠ hello) (hc : b.consumers.contains e.address = true)
      (hp : Packet.decode data = .ok p) (ho : b.answers.get? ⟨e.address, p.id⟩ = none)
      (hk : b.mode = .direct ∨ Control.ofBytes? data = none) :
      Reads b e id data [] (.error .answerNotFound) (b.meet e)
  | rejected {f : Failure} (hh : data ≠ hello) (hc : b.consumers.contains e.address = false)
      (ha : b.allow data = .error f) : Reads b e id data [] (.error f) (b.meet e)
  | enqueued (hh : data ≠ hello) (hc : b.consumers.contains e.address = false)
      (ha : b.allow data = .ok ()) :
      Reads b e id data [] (.ok (.enqueued (b.queue.lastSeq + 1)))
        { b.meet e with
          queue := ⟨b.queue.messages ++ [⟨e.address, id, data, b.queue.lastSeq + 1, 0⟩],
            b.queue.lastSeq + 1⟩
          woken := true }

theorem registerConsumer_reads (c : Carrier ω) (b : Broker) (e : Endpoint) (id : UInt32) (w : ω) :
    ∃ sent r b' w', c.Sends w sent w' ∧ registerConsumer c (b.meet e) e w = (r, b', w') ∧
      (∀ log, registerConsumer c.recorded (b.meet e) e (w, log) = (r, b', w', log ++ sent)) ∧
      Reads b e id hello sent r b' := by
  unfold registerConsumer Roster.add
  simp only [meet_consumers]
  cases hc : b.consumers.contains e.address with
  | true => exact ⟨[], _, _, w, .nil w, rfl, fun log => by simp, .duplicate rfl hc⟩
  | false => exact ⟨_, _, _, _, .single c w e helloAck, rfl, fun log => rfl, .registered rfl hc _⟩

theorem readConsumer_reads (c : Carrier ω) (b : Broker) (e : Endpoint) (id : UInt32) {data : Bytes} (w : ω)
    (hh : data ≠ hello) (hc : b.consumers.contains e.address = true) :
    ∃ sent r b' w', c.Sends w sent w' ∧ readConsumer c (b.meet e) e.address data w = (r, b', w') ∧
      (∀ log, readConsumer c.recorded (b.meet e) e.address data (w, log) = (r, b', w', log ++ sent)) ∧
      Reads b e id data sent r b' := by
  unfold readConsumer
  cases hp : Packet.decode data with
  | error f =>
    dsimp only
    refine ⟨[], _, _, w, .nil w, ?_, fun log => ?_, .malformed hh hc hp⟩ <;> split <;> simp
  | ok p =>
    simp only [Correlations.take, meet_answers]
    cases ho : b.answers.get? ⟨e.address, p.id⟩ with
    | none =>
      simp only [meet_mode]
      cases hm : b.mode with
      | direct => exact ⟨[], _, _, w, .nil w, rfl, fun log => by simp, .unmatched hh hc hp ho (.inl hm)⟩
      | command =>
        cases hk : Control.ofBytes? data with
        | none => exact ⟨[], _, _, w, .nil w, rfl, fun log => by simp, .unmatched hh hc hp ho (.inr hk)⟩
        | some control =>
          exact ⟨[], _, _, w, .nil w, rfl, fun log => by simp, .controlled hh hc hp ho hm hk⟩
    | some o =>
      unfold forward findPeer
      dsimp only
      cases hn : (b.meet e).peers.get? o.producer with
      | none => exact ⟨[], _, _, w, .nil w, rfl, fun log => by simp, .unreachable hh hc hp ho hn⟩
      | some peer =>
        refine ⟨_, _, _, _, .single c w peer (Packet.encode ⟨o.id, p.payload⟩), ?_, fun log => ?_,
          .forwarded hh hc hp ho hn (c.send w peer (Packet.encode ⟨o.id, p.payload⟩)).1⟩
        · dsimp only
          cases c.send w peer (Packet.encode ⟨o.id, p.payload⟩) with
          | mk r w' => cases r <;> rfl
        · simp only [Carrier.recorded_send]
          cases c.send w peer (Packet.encode ⟨o.id, p.payload⟩) with
          | mk r w' => cases r <;> rfl

theorem handleData_reads (c : Carrier ω) (b : Broker) (e : Endpoint) (id : UInt32) (data : Bytes) (w : ω) :
    ∃ sent r b' w', c.Sends w sent w' ∧ handleData c b e id data w = (r, b', w') ∧
      (∀ log, handleData c.recorded b e id data (w, log) = (r, b', w', log ++ sent)) ∧
      Reads b e id data sent r b' := by
  unfold handleData
  by_cases hh : data = hello
  · subst hh
    simp only [ite_true]
    exact registerConsumer_reads c b e id w
  · simp only [hh, ite_false, meet_consumers]
    cases hc : b.consumers.contains e.address with
    | true => exact readConsumer_reads c b e id w hh hc
    | false =>
      have hal : (b.meet e).allow data = b.allow data := by unfold allow; simp
      simp only [Bool.false_eq_true, ite_false, enqueue, hal]
      cases ha : b.allow data with
      | error f => exact ⟨[], _, _, w, .nil w, rfl, fun log => by simp, .rejected hh hc ha⟩
      | ok u =>
        refine ⟨[], _, _, w, .nil w, rfl, fun log => by simp, ?_⟩
        simp only [Queue.enqueue, meet_queue]
        exact .enqueued hh hc ha

end Broker

end Switchboard
