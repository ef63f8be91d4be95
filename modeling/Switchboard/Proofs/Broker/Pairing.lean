import Mathlib.Data.List.Rotate
import Switchboard.Proofs.Broker.Draining
import Switchboard.Proofs.Roster.Rotation

/-!
# Draining in direct mode

Each pass gives the front message to the head of the serving order, which goes to its end, whether the
send succeeds or not. So a drain empties the queue and pairs its messages with the consumers in this order,
over and over again (`drain_pairs_off`).
-/

namespace Switchboard

namespace Roster

variable {r : Roster}

theorem order_eq_nil_iff : r.order = [] ↔ r.entries = [] := by
  constructor
  · intro h
    exact (h ▸ order_perm r).symm.eq_nil
  · intro h
    exact (h ▸ order_perm r).eq_nil

/-- Serving the head of the order moves only the cursor. -/
theorem next_of_order {e : Endpoint} {es : List Endpoint} (h : r.order = e :: es) :
    r.next = (.ok e, { r with cursor := r.turn + 1 }) ∧
      ({ r with cursor := r.turn + 1 } : Roster).order = r.order.rotate 1 := by
  rcases next_cases r with ⟨hn, -⟩ | ⟨e', es', r', ho, hn, ho'⟩
  · rw [hn] at h; cases h
  · obtain ⟨rfl, rfl⟩ := List.cons.inj (ho.symm.trans h)
    have hr : r' = { r with cursor := r.turn + 1 } := by
      unfold next at hn
      split at hn
      · cases hn
      · exact (Prod.mk.inj hn).2.symm
    rw [← hr, ho', h, List.rotate_cons_succ, List.rotate_zero]
    exact ⟨hn, rfl⟩

end Roster

/-- Record the copies that were accepted, each for its message, from left to right. -/
def Correlations.recordEach (t : Correlations) (copies : List (Message × Sending)) : Correlations :=
  copies.foldl (fun t p => t.recordSent p.2.endpoint.address p.1.origin p.2.result) t

/-- Under a delivery the last copy counts. -/
theorem Correlations.get?_recordEach (d : Delivery) : ∀ (copies : List (Message × Sending)) (t : Correlations),
    (t.recordEach copies).get? d =
      ((copies.reverse.find? fun p => p.2.delivery? = some d).map (·.1.origin)).or (t.get? d)
  | [], t => rfl
  | p :: copies, t => by
    have hstep : t.recordEach (p :: copies) =
        (t.recordSent p.2.endpoint.address p.1.origin p.2.result).recordEach copies := rfl
    rw [hstep, get?_recordEach d copies, get?_recordSent, List.reverse_cons, List.find?_append, Option.map_or,
      Option.or_assoc]
    congr 1
    by_cases hp : p.2.delivery? = some d <;> simp [hp]

namespace Broker

variable {ω : Type}

/-- Message `i` was offered to the consumer at place `i` of the order, counted round and round. -/
structure Paired (order : List Endpoint) (ms : List Message) (sent : List Sending) : Prop where
  length : sent.length = ms.length
  place : ∀ i m, ms[i]? = some m →
    ∃ e r, order[i % order.length]? = some e ∧ sent[i]? = some ⟨e, m.payload, r⟩

/-- The broker with an empty queue and another cursor. -/
def emptied (b : Broker) (cursor : Nat) (t : Correlations) : Broker :=
  { b with
    consumers := { b.consumers with cursor }
    queue := { b.queue with messages := [] }
    answers := t }

theorem paired_nil (order : List Endpoint) : Paired order [] [] :=
  ⟨rfl, fun i m h => by cases h⟩

theorem Paired.cons {order : List Endpoint} {ms : List Message} {sent : List Sending}
    (h : Paired (order.rotate 1) ms sent) {e : Endpoint} (he : order[0]? = some e) (m : Message)
    (r : Except Failure UInt32) : Paired order (m :: ms) (⟨e, m.payload, r⟩ :: sent) := by
  have hpos : 0 < order.length := (List.getElem?_eq_some_iff.mp he).1
  refine ⟨congrArg (· + 1) h.length, fun i m' hm => ?_⟩
  cases i with
  | zero =>
    obtain rfl := Option.some.inj hm
    refine ⟨e, r, ?_, rfl⟩
    rw [Nat.zero_mod]
    exact he
  | succ i =>
    obtain ⟨e', r', ho, hs⟩ := h.place i m' hm
    refine ⟨e', r', ?_, hs⟩
    rw [List.length_rotate, List.getElem?_rotate (Nat.mod_lt i hpos), Nat.mod_add_mod] at ho
    exact ho

theorem dispatch_of_order (c : Carrier ω) {b : Broker} (w : ω) (hm : b.mode = .direct) {m : Message}
    {ms : List Message} (hq : b.queue.messages = m :: ms) {e : Endpoint} {es : List Endpoint}
    (ho : b.consumers.order = e :: es) : dispatch c b w =
      (if (c.send w e m.payload).1.isOk then .dispatched 1 else .dropped,
        { b with
          consumers := { b.consumers with cursor := b.consumers.turn + 1 }
          queue := { b.queue with messages := ms }
          answers := b.answers.recordSent e.address m.origin (c.send w e m.payload).1 },
        (c.send w e m.payload).2) := by
  have hne : b.consumers.entries ≠ [] := by
    rw [ne_eq, ← Roster.order_eq_nil_iff, ho]
    exact List.cons_ne_nil e es
  have hd : dispatch c b w = dispatchDirect c b w := by
    simp [dispatch, Queue.isEmpty, Roster.isEmpty, hq, hne, hm]
  rw [hd, dispatchDirect, (Roster.next_of_order ho).1, Queue.dequeue_of_front hq]
  rfl

theorem drain_of_order (c : Carrier ω) : ∀ (ms : List Message) {b : Broker} (w : ω), b.mode = .direct →
    b.queue.messages = ms → b.consumers.order ≠ [] → ∃ sent cursor w', c.Sends w sent w' ∧
      Paired b.consumers.order ms sent ∧
      ({ b.consumers with cursor } : Roster).order = b.consumers.order.rotate ms.length ∧
      drain c b w = (ms.length, b.emptied cursor (b.answers.recordEach (ms.zip sent)), w') ∧
      ∀ log, drain c.recorded b (w, log) =
        (ms.length, b.emptied cursor (b.answers.recordEach (ms.zip sent)), w', log ++ sent)
  | [], b, w, hm, hq, ho => by
    have hb : b.emptied b.consumers.cursor b.answers = b := by
      unfold emptied
      rw [← hq]
    have hi : ∀ {ω' : Type} (c' : Carrier ω') (w' : ω'), drain c' b w' = (0, b, w') := by
      intro ω' c' w'
      refine drain_of_rest (p := .idle) ?_ rfl
      simp [dispatch, Queue.isEmpty, hq]
    refine ⟨[], b.consumers.cursor, w, .nil w, paired_nil _, (List.rotate_zero _).symm, ?_, fun log => ?_⟩
    · exact (hi c w).trans (congrArg (0, ·, w) hb.symm)
    · rw [List.append_nil]
      exact (hi c.recorded (w, log)).trans (congrArg (0, ·, w, log) hb.symm)
  | m :: ms, b, w, hm, hq, ho => by
    obtain ⟨e, es, he⟩ := List.exists_cons_of_ne_nil ho
    have hn := (Roster.next_of_order he).2
    have hd := dispatch_of_order c w hm hq he
    have hdr := fun log => dispatch_of_order c.recorded (w, log) hm hq he
    have hp : ∀ {r : Except Failure UInt32},
        (if r.isOk then Pass.dispatched 1 else .dropped).madeProgress = true := by
      intro r
      split <;> rfl
    generalize hb : ({ b with
      consumers := { b.consumers with cursor := b.consumers.turn + 1 }
      queue := { b.queue with messages := ms }
      answers := b.answers.recordSent e.address m.origin (c.send w e m.payload).1 } : Broker) = b' at hd
    obtain ⟨sent, cursor, w', hs, hpair, hord, hdrain, hlog⟩ :=
      drain_of_order c ms (b := b') (c.send w e m.payload).2 (by rw [← hb]; exact hm) (by rw [← hb])
        (by rw [← hb, hn, he]; simp)
    subst hb
    dsimp only at hpair hord hdrain hlog
    rw [hn] at hpair hord
    rw [List.rotate_rotate, Nat.add_comm] at hord
    refine ⟨_, cursor, w', .cons hs, hpair.cons (by rw [he]; rfl) m _, hord, ?_, fun log => ?_⟩
    · rw [drain_of_pass hd hp, hdrain]
      rfl
    · rw [drain_of_pass (hdr log) hp, Carrier.recorded_send]
      dsimp only
      rw [hlog, List.append_assoc]
      rfl

/-- **Draining in direct mode.** If anyone is registered, a drain empties the queue and returns how many
messages there were: message `i` is offered to the consumer at place `i` of the serving order, counted
round and round, and nothing else is sent. What was accepted is recorded: under a delivery is the origin of
the last message that was accepted as this delivery, or else what was there. The order has turned by the
number of messages. With no consumer or no message nothing changes. -/
theorem drain_pairs_off (c : Carrier ω) {b : Broker} (w : ω) (hm : b.mode = .direct) :
    (b.consumers.entries ≠ [] → ∃ sent cursor w',
      (∀ log, drain c.recorded b (w, log) = (b.queue.size,
        b.emptied cursor (b.answers.recordEach (b.queue.messages.zip sent)), w', log ++ sent)) ∧
      drain c b w = (b.queue.size, b.emptied cursor (b.answers.recordEach (b.queue.messages.zip sent)), w') ∧
      (∃ ps, Drains c b w ps (drain c b w).2.1 w' ∧ ps.length = b.queue.size + 1) ∧
      c.Sends w sent w' ∧ Paired b.consumers.order b.queue.messages sent ∧
      (∀ d, (drain c b w).2.1.answers.get? d =
        (((b.queue.messages.zip sent).reverse.find? fun p => p.2.delivery? = some d).map (·.1.origin)).or
          (b.answers.get? d)) ∧
      (drain c b w).2.1.consumers.order = b.consumers.order.rotate (b.queue.size % b.consumers.size)) ∧
    (b.consumers.entries = [] ∨ b.queue.messages = [] → drain c b w = (0, b, w)) := by
  constructor
  · intro hne
    have ho : b.consumers.order ≠ [] := fun h => hne (Roster.order_eq_nil_iff.mp h)
    obtain ⟨sent, cursor, w', hs, hpair, hord, hdrain, hlog⟩ :=
      drain_of_order c b.queue.messages w hm rfl ho
    obtain ⟨ps, hps, hl⟩ := drain_drains c b w
    have hlen : b.consumers.size = b.consumers.order.length := (Roster.order_perm b.consumers).length_eq.symm
    rw [hdrain] at hps hl ⊢
    rw [hlen, List.rotate_mod]
    exact ⟨sent, cursor, w', hlog, rfl, ⟨ps, hps, hl⟩, hs, hpair, fun d => Correlations.get?_recordEach d _ _, hord⟩
  · intro h
    refine drain_of_rest (p := .idle) ?_ rfl
    rcases h with h | h <;> simp [dispatch, Queue.isEmpty, Roster.isEmpty, h]

/-- Three messages for two consumers, with the cursor past the last of them: the first consumer is offered the
first message and the third one, and the one in between is lost on its way to the other. -/
theorem drain_pairs_off_three : ∃ (c : Carrier Nat) (b : Broker) (sent : List Sending), b.mode = .direct ∧
    b.queue.size = 3 ∧ b.consumers.size = 2 ∧ b.consumers.cursor = 2 ∧ c.Sends 0 sent (drain c b 0).2.2 ∧
    sent.map (fun s => (s.endpoint.address, s.data, s.result.isOk)) =
      [("left", toBytes "a", true), ("right", toBytes "b", false), ("left", toBytes "c", true)] ∧
    (drain c b 0).1 = 3 ∧ (drain c b 0).2.1.queue.messages = [] ∧
    (drain c b 0).2.1.consumers.order = [⟨"right", 1, .far⟩, ⟨"left", 0, .far⟩] ∧
    (drain c b 0).2.1.answers.get? ⟨"left", 9⟩ = some ⟨"asker", 3⟩ ∧
    (drain c b 0).2.1.answers.get? ⟨"right", 9⟩ = none := by
  let c : Carrier Nat :=
    ⟨fun n e _ => (if e.address = "right" then .error (.sendFailure "closed") else .ok 9, n + 1)⟩
  let b : Broker := { fresh .direct (.ofNames []) 0 with
    queue := ⟨[⟨"asker", 1, toBytes "a", 1, 0⟩, ⟨"asker", 2, toBytes "b", 2, 0⟩,
      ⟨"asker", 3, toBytes "c", 3, 0⟩], 3⟩
    consumers := ⟨[⟨"left", 0, .far⟩, ⟨"right", 1, .far⟩], ["left", "right"], 2⟩ }
  obtain ⟨sent, cursor, w', -, hd, -, hs, hp, -, ho⟩ := (drain_pairs_off c (b := b) 0 rfl).1 (by decide)
  obtain ⟨e₀, r₀, he₀, h₀⟩ := hp.place 0 _ rfl
  obtain ⟨e₁, r₁, he₁, h₁⟩ := hp.place 1 _ rfl
  obtain ⟨e₂, r₂, he₂, h₂⟩ := hp.place 2 _ rfl
  obtain ⟨s₀, s₁, s₂, rfl⟩ := List.length_eq_three.mp hp.length
  obtain rfl := Option.some.inj (he₀ : some ⟨"left", 0, .far⟩ = some e₀)
  obtain rfl := Option.some.inj (he₁ : some ⟨"right", 1, .far⟩ = some e₁)
  obtain rfl := Option.some.inj ((by decide : some ⟨"left", 0, .far⟩ = _).trans he₂)
  cases h₀; cases h₁; cases h₂
  have hr : r₀ = .ok 9 ∧ r₁ = .error (.sendFailure "closed") ∧ r₂ = .ok 9 := by
    cases hs with
    | cons hs =>
      cases hs with
      | cons hs => exact ⟨rfl, rfl, hs.result⟩
  obtain ⟨rfl, rfl, rfl⟩ := hr
  refine ⟨c, b, _, rfl, rfl, rfl, rfl, by rw [hd]; exact hs, rfl, ?_, ?_, ho.trans (by decide), ?_, ?_⟩ <;>
    rw [hd] <;> rfl

end Broker

end Switchboard
