import Switchboard.Proofs.Broker.Conservation
import Switchboard.Proofs.Broker.Stages

/-!
# Passes among readers

One engine runs passes, one operation of a `Stage` after the other, and between any two of them readers do
what they like to the tables. Only the engine takes messages from the queue, so the front that a pass has
seen stays the front (`Round.Fits`), and the list of consumers that it works through has no address twice.
-/

namespace Switchboard.Broker

/-- An operation of a reader on one table. -/
inductive Meddling where
  | enqueue (m : Message)
  | add (e : Endpoint)
  | remove (a : Address)
  | subscribe (a : Address) (command : String)
  | unsubscribe (a : Address) (command : String)
  | dropAll (a : Address)
  | take (d : Delivery)
  | rewire (peers : Dictionary Address Endpoint)
  | recatalogue (commands : Catalogue)
  | wake

namespace Meddling

def apply (b : Broker) : Meddling → Broker
  | enqueue m => { b with queue := (b.queue.enqueue m).2 }
  | add e => { b with consumers := (b.consumers.add e).2 }
  | remove a => { b with consumers := (b.consumers.remove a).2 }
  | subscribe a command => { b with subscriptions := (b.subscriptions.subscribe a command).2 }
  | unsubscribe a command => { b with subscriptions := (b.subscriptions.unsubscribe a command).2 }
  | dropAll a => { b with subscriptions := b.subscriptions.dropAll a }
  | take d => { b with answers := (b.answers.take d).2 }
  | rewire peers => { b with peers }
  | recatalogue commands => { b with commands }
  | wake => b.wake

/-- The message that the queue accepts. -/
def accepted (b : Broker) : Meddling → List Message
  | enqueue m => [{ m with seq := b.queue.lastSeq + 1 }]
  | _ => []

variable (t : Meddling) (b : Broker)

@[simp] theorem apply_mode : (t.apply b).mode = b.mode := by cases t <;> rfl

@[simp] theorem apply_maxAttempts : (t.apply b).maxAttempts = b.maxAttempts := by cases t <;> rfl

theorem apply_messages : (t.apply b).queue.messages = b.queue.messages ++ t.accepted b := by
  cases t with
  | enqueue m => rfl
  | _ => exact (List.append_nil _).symm

theorem apply_head {m : Message} (h : b.queue.messages.head? = some m) :
    (t.apply b).queue.messages.head? = some m := by
  rw [apply_messages, List.head?_append, h]; rfl

theorem apply_wellFormed {b : Broker} (h : b.consumers.WellFormed) : (t.apply b).consumers.WellFormed := by
  cases t with
  | add e =>
    simp only [apply, Roster.add]
    by_cases hc : b.consumers.contains e.address = true
    · rw [if_pos hc]; exact h
    · rw [if_neg hc]
      exact h.add (Bool.eq_false_iff.mpr hc)
  | remove a => exact h.remove a
  | _ => exact h

end Meddling

/-- What a reader does to the broker is a sequence of such operations. -/
theorem Reads.meddles {b b' : Broker} {e : Endpoint} {id : UInt32} {data : Bytes} {sent : List Sending}
    {r : Except Failure Inbound} (h : Reads b e id data sent r b') :
    ∃ ts : List Meddling, b' = ts.foldl (fun b t => t.apply b) b := by
  have hm : b.meet e = (Meddling.rewire (b.meet e).peers).apply b := by
    unfold meet; split <;> rfl
  cases h with
  | registered hh hc r =>
    refine ⟨[.rewire (b.meet e).peers, .add e, .wake], ?_⟩
    rw [hm]
    simp [Meddling.apply, Roster.add, hc, wake]
  | @controlled p control hh hc hp ho hmode hk =>
    cases control with
    | subscribe command =>
      refine ⟨[.rewire (b.meet e).peers, .subscribe e.address command, .wake], ?_⟩
      rw [hm]
      rfl
    | unsubscribe command =>
      refine ⟨[.rewire (b.meet e).peers, .unsubscribe e.address command], ?_⟩
      rw [hm]
      rfl
  | enqueued hh hc ha =>
    refine ⟨[.rewire (b.meet e).peers, .enqueue ⟨e.address, id, data, 0, 0⟩, .wake], ?_⟩
    rw [hm]
    rfl
  | @unreachable p o hh hc hp ho hn =>
    refine ⟨[.rewire (b.meet e).peers, .take ⟨e.address, p.id⟩], ?_⟩
    rw [hm]
    simp [Meddling.apply, Correlations.take, ho]
  | @forwarded p o peer hh hc hp ho hn r =>
    refine ⟨[.rewire (b.meet e).peers, .take ⟨e.address, p.id⟩], ?_⟩
    rw [hm]
    simp [Meddling.apply, Correlations.take, ho]
  | _ => exact ⟨[.rewire (b.meet e).peers], hm⟩

theorem disconnect_meddles (b : Broker) (a : Address) : b.disconnect a =
    [Meddling.remove a, .dropAll a, .rewire (b.peers.erase a)].foldl (fun b t => t.apply b) b := rfl

/-! ## Rounds -/

/-- The message that the operation of a stage takes from the queue. -/
def Stage.takes (b : Broker) : Stage → List Message
  | .dequeue _ => b.queue.dequeue.1.toOption.toList
  | .remove m _ | .discard m => (b.queue.removeFront m.seq).1.toOption.toList
  | _ => []

/-- A pass under way, with what it has sent and taken, and what was at the front when it looked. -/
structure Round where
  stage : Stage
  front : Option Message
  sent : List Sending
  taken : List Message

def Round.opening : Round := ⟨.queue, none, [], []⟩

/-- The broker and its connections, the round under way and those that are finished, and the messages that
were accepted so far. -/
structure Floor (ω : Type) where
  broker : Broker
  world : ω
  accepted : List Message
  finished : List Round
  current : Round

namespace Floor

variable {ω : Type}

def opening (mode : DispatchMode) (commands : Catalogue) (maxAttempts : UInt32) (w : ω) : Floor ω :=
  ⟨fresh mode commands maxAttempts, w, [], [], .opening⟩

def advance (c : Carrier ω) (f : Floor ω) : Floor ω :=
  let r := Broker.advance c.recorded f.broker (f.world, f.current.sent) f.current.stage
  { f with
    broker := r.2.1
    world := r.2.2.1
    current :=
      { stage := r.1
        front := match f.current.stage with
          | .queue => f.broker.queue.messages.head?
          | _ => f.current.front
        sent := r.2.2.2
        taken := f.current.taken ++ f.current.stage.takes f.broker } }

inductive Step (c : Carrier ω) (f : Floor ω) : Floor ω → Prop
  | advance : Step c f (f.advance c)
  | begin {p : Pass} (h : f.current.stage = .done p) :
      Step c f { f with finished := f.finished ++ [f.current], current := .opening }
  | meddle (t : Meddling) (w : ω) :
      Step c f { f with broker := t.apply f.broker, world := w, accepted := f.accepted ++ t.accepted f.broker }

inductive Reaches (c : Carrier ω) (start : Floor ω) : Floor ω → Prop
  | start : Reaches c start start
  | next {f f' : Floor ω} (h : Reaches c start f) (hs : Step c f f') : Reaches c start f'

end Floor

/-! ## What a round holds on to -/

def addresses (sent : List Sending) : List Address := sent.map (·.endpoint.address)

/-- What a finished round did with the front of the queue. -/
structure Round.Concludes (mode : DispatchMode) (maxAttempts : UInt32) (r : Round) (p : Pass) : Prop where
  stage : r.stage = .done p
  taken : p.madeProgress = true → ∃ m, r.front = some m ∧ r.taken.map (·.request) = [m.request]
  kept : p.madeProgress = false → r.taken = []
  dispatched : ∀ n, p = .dispatched n → 1 ≤ n ∧ copies r.sent = n
  undelivered : (∀ n, p ≠ .dispatched n) → copies r.sent = 0
  dropped : p = .dropped → (mode = .direct ∧ r.sent.length = 1) ∨
    (0 < maxAttempts ∧ ∃ m, r.front = some m ∧ maxAttempts ≤ m.attempts + 1)
  data : ∀ s ∈ r.sent, ∃ m, r.front = some m ∧ s.data = m.payload
  once : (addresses r.sent).Nodup

/-- `m` was at the front when the round looked, and the copies sent since are copies of it. -/
structure Round.Holds (r : Round) (m : Message) : Prop where
  front : r.front = some m
  taken : r.taken = []
  data : ∀ s ∈ r.sent, s.data = m.payload

def Round.Fits (r : Round) (b : Broker) : Prop :=
  match r.stage with
  | .queue => r.sent = [] ∧ r.taken = []
  | .roster | .peek => ∃ m, b.queue.messages.head? = some m ∧ r.Holds m ∧ r.sent = []
  | .next | .dequeue _ => ∃ m, b.queue.messages.head? = some m ∧ r.Holds m ∧ r.sent = [] ∧ b.mode = .direct
  | .hand _ m => r.front = some m ∧ r.taken = [m] ∧ r.sent = [] ∧ b.mode = .direct
  | .resolve m | .list m _ => b.queue.messages.head? = some m ∧ r.Holds m ∧ r.sent = []
  | .ask m _ e rest n | .offer m _ e rest n => b.queue.messages.head? = some m ∧ r.Holds m ∧
      copies r.sent = n ∧ (addresses r.sent ++ (e :: rest).map (·.address)).Nodup
  | .remove m n => b.queue.messages.head? = some m ∧ r.Holds m ∧ 1 ≤ n ∧ copies r.sent = n ∧
      (addresses r.sent).Nodup
  | .count m => b.queue.messages.head? = some m ∧ r.Holds m ∧ copies r.sent = 0 ∧ (addresses r.sent).Nodup
  | .discard m => b.queue.messages.head? = some { m with attempts := m.attempts + 1 } ∧ r.Holds m ∧
      copies r.sent = 0 ∧ (addresses r.sent).Nodup ∧ 0 < b.maxAttempts ∧ b.maxAttempts ≤ m.attempts + 1
  | .done p => r.Concludes b.mode b.maxAttempts p

theorem Round.fits_opening (b : Broker) : Round.opening.Fits b := ⟨rfl, rfl⟩

/-- No reader can take from a round what it holds on to. -/
theorem Round.Fits.meddle {r : Round} {b : Broker} (h : r.Fits b) (t : Meddling) : r.Fits (t.apply b) := by
  unfold Round.Fits at h ⊢
  rw [t.apply_mode, t.apply_maxAttempts]
  cases hs : r.stage with
  | queue => rw [hs] at h; exact h
  | hand e m => rw [hs] at h; exact h
  | done p => rw [hs] at h; exact h
  | roster | peek | next | dequeue e =>
    rw [hs] at h
    obtain ⟨m, hh, h⟩ := h
    exact ⟨m, t.apply_head b hh, h⟩
  | resolve m | list m command | ask m command e rest n | offer m command e rest n | remove m n | count m
  | discard m =>
    rw [hs] at h
    exact ⟨t.apply_head b h.1, h.2⟩

/-! ## One operation of a pass -/

/-- What an operation of a pass does to the broker, with the messages that it takes. -/
inductive Moves (b : Broker) : List Message → Broker → Prop
  | stays (answers : Correlations) : Moves b [] { b with answers }
  | serves {e : Endpoint} (he : b.consumers.entries[b.consumers.turn]? = some e) :
      Moves b [] { b with consumers := { b.consumers with cursor := b.consumers.turn + 1 } }
  | takes {m : Message} {ms : List Message} (hq : b.queue.messages = m :: ms) :
      Moves b [m] { b with queue := { b.queue with messages := ms } }
  | counts {m : Message} {ms : List Message} (hq : b.queue.messages = m :: ms) :
      Moves b [] { b with queue := { b.queue with messages := { m with attempts := m.attempts + 1 } :: ms } }

theorem advance_moves {ω : Type} (c : Carrier ω) (b : Broker) (w : ω) (s : Stage) :
    Moves b (s.takes b) (Broker.advance c b w s).2.1 := by
  cases s with
  | next =>
    simp only [advance, Stage.takes, Roster.next]
    cases he : b.consumers.entries[b.consumers.turn]? with
    | none => exact .stays b.answers
    | some e => exact .serves he
  | dequeue e =>
    rcases b.queue.dequeue_cases with ⟨f, hd⟩ | ⟨m, ms, hq, hd⟩
    · simp only [advance, Stage.takes, hd]
      exact .stays b.answers
    · simp only [advance, Stage.takes, hd]
      exact .takes hq
  | peek =>
    simp only [advance, Stage.takes]
    cases b.queue.peek with
    | error f => exact .stays b.answers
    | ok m => exact .stays b.answers
  | resolve m =>
    simp only [advance, Stage.takes]
    cases b.commands.resolve m.payload with
    | error f => exact .stays b.answers
    | ok invocation => exact .stays b.answers
  | remove m n =>
    rcases b.queue.removeFront_cases m.seq with ⟨f, hd⟩ | ⟨m', ms, hq, hd⟩
    · simp only [advance, Stage.takes, hd]
      exact .stays b.answers
    · simp only [advance, Stage.takes, hd]
      exact .takes hq
  | count m =>
    rcases b.queue.recordAttempt_cases m.seq with ⟨f, hd⟩ | ⟨m', ms, hq, hd⟩
    · simp only [advance, Stage.takes, hd]
      exact .stays b.answers
    · simp only [advance, Stage.takes, hd]
      exact .counts hq
  | discard m =>
    rcases b.queue.removeFront_cases m.seq with ⟨f, hd⟩ | ⟨m', ms, hq, hd⟩
    · simp only [advance, Stage.takes, hd]
      exact .stays b.answers
    · simp only [advance, Stage.takes, hd]
      exact .takes hq
  | hand e m => exact .stays _
  | offer m command e rest n => exact .stays _
  | queue | roster | list m command | ask m command e rest n | done p => exact .stays b.answers

section
variable {b b' : Broker} {taken : List Message}

theorem Moves.keeps (h : Moves b taken b') : b'.mode = b.mode ∧ b'.maxAttempts = b.maxAttempts ∧
    b'.queue.lastSeq = b.queue.lastSeq := by
  cases h <;> exact ⟨rfl, rfl, rfl⟩

theorem Moves.wellFormed (h : Moves b taken b') (hr : b.consumers.WellFormed) : b'.consumers.WellFormed := by
  cases h with
  | serves he => exact hr.next he
  | stays | takes | counts => exact hr

/-- What is taken is what the queue loses. A counted attempt does not change a request. -/
theorem Moves.requests (h : Moves b taken b') : b.requests = taken.map (·.request) ++ b'.requests := by
  unfold Broker.requests
  cases h with
  | stays | serves => rfl
  | takes hq => rw [hq]; rfl
  | counts hq => rw [hq]; rfl

end

/-! ## One operation of a round -/

theorem Round.concludes_idle (mode : DispatchMode) (maxAttempts : UInt32) (front : Option Message) :
    Round.Concludes mode maxAttempts ⟨.done .idle, front, [], []⟩ .idle := by
  refine ⟨rfl, ?_, ?_, ?_, ?_, ?_, ?_, List.nodup_nil⟩
  · intro h; cases h
  · intro _; rfl
  · intro n h; cases h
  · intro _; rfl
  · intro h; cases h
  · intro s hs; cases hs

section
variable {mode : DispatchMode} {maxAttempts : UInt32} {b : Broker} {m : Message} {r : Round}

theorem Round.Holds.concludes_stalled (h : r.Holds m) (hc : copies r.sent = 0)
    (hn : (addresses r.sent).Nodup) :
    Round.Concludes mode maxAttempts { r with stage := .done .stalled } .stalled := by
  refine ⟨rfl, ?_, ?_, ?_, ?_, ?_, ?_, hn⟩
  · intro h; cases h
  · intro _; exact h.taken
  · intro n h; cases h
  · intro _; exact hc
  · intro h; cases h
  · intro s hs; exact ⟨m, h.front, h.data s hs⟩

theorem Round.Holds.concludes_dispatched (h : r.Holds m) {n : Nat} (h1 : 1 ≤ n) (hc : copies r.sent = n)
    (hn : (addresses r.sent).Nodup) :
    Round.Concludes mode maxAttempts { r with stage := .done (.dispatched n), taken := [m] } (.dispatched n) := by
  refine ⟨rfl, ?_, ?_, ?_, ?_, ?_, ?_, hn⟩
  · intro _; exact ⟨m, h.front, rfl⟩
  · intro h; cases h
  · intro k hk; cases hk; exact ⟨h1, hc⟩
  · intro hk; exact absurd rfl (hk n)
  · intro h; cases h
  · intro s hs; exact ⟨m, h.front, h.data s hs⟩

theorem Round.Holds.concludes_dropped (h : r.Holds m) (hc : copies r.sent = 0) (hn : (addresses r.sent).Nodup)
    (hx : 0 < maxAttempts ∧ maxAttempts ≤ m.attempts + 1) {m' : Message} (hm : m'.request = m.request) :
    Round.Concludes mode maxAttempts { r with stage := .done .dropped, taken := [m'] } .dropped := by
  refine ⟨rfl, ?_, ?_, ?_, ?_, ?_, ?_, hn⟩
  · intro _; exact ⟨m, h.front, by rw [List.map_singleton, hm]⟩
  · intro h; cases h
  · intro n h; cases h
  · intro _; exact hc
  · intro _; exact .inr ⟨hx.1, m, h.front, hx.2⟩
  · intro s hs; exact ⟨m, h.front, h.data s hs⟩

theorem concludes_handed (hm : mode = .direct) (e : Endpoint) (result : Except Failure UInt32) :
    Round.Concludes mode maxAttempts ⟨.done (if result.isOk then .dispatched 1 else .dropped), some m,
      [⟨e, m.payload, result⟩], [m]⟩ (if result.isOk then .dispatched 1 else .dropped) := by
  have hd : ∀ s ∈ [(⟨e, m.payload, result⟩ : Sending)], ∃ m', some m = some m' ∧ s.data = m'.payload := by
    intro s hs
    rw [List.mem_singleton.mp hs]
    exact ⟨m, rfl, rfl⟩
  cases result with
  | ok id =>
    refine ⟨rfl, ?_, ?_, ?_, ?_, ?_, hd, List.nodup_singleton _⟩
    · intro _; exact ⟨m, rfl, rfl⟩
    · intro h; cases h
    · intro n h; cases h; exact ⟨Nat.le_refl 1, rfl⟩
    · intro h; exact absurd rfl (h 1)
    · intro h; cases h
  | error f =>
    refine ⟨rfl, ?_, ?_, ?_, ?_, ?_, hd, List.nodup_singleton _⟩
    · intro _; exact ⟨m, rfl, rfl⟩
    · intro h; cases h
    · intro n h; cases h
    · intro _; rfl
    · intro _; exact .inl ⟨hm, rfl⟩

theorem Round.Holds.fits_proceed (h : r.Holds m) (hq : b.queue.messages.head? = some m) (command : String)
    {n : Nat} (hc : copies r.sent = n) {rest : List Endpoint}
    (hn : (addresses r.sent ++ rest.map (·.address)).Nodup) :
    Round.Fits { r with stage := .proceed m command n rest } b := by
  cases rest with
  | cons e rest => exact ⟨hq, ⟨h.front, h.taken, h.data⟩, hc, hn⟩
  | nil =>
    rw [List.map_nil, List.append_nil] at hn
    unfold Stage.proceed
    by_cases hz : n = 0
    · rw [if_pos hz]
      exact ⟨hq, ⟨h.front, h.taken, h.data⟩, hc.trans hz, hn⟩
    · rw [if_neg hz]
      exact ⟨hq, ⟨h.front, h.taken, h.data⟩, Nat.pos_of_ne_zero hz, hc, hn⟩

end

theorem deliver_recorded {ω : Type} (c : Carrier ω) (m : Message) (e : Endpoint) (t : Correlations) (w : ω)
    (sent : List Sending) : deliver c.recorded m e t (w, sent) = ((c.send w e m.payload).1.isOk,
      t.recordSent e.address m.origin (c.send w e m.payload).1, (c.send w e m.payload).2,
      sent ++ [⟨e, m.payload, (c.send w e m.payload).1⟩]) := rfl

namespace Floor

variable {ω : Type} {c : Carrier ω} {f : Floor ω}

theorem fits_advance (hr : f.broker.consumers.WellFormed) (h : f.current.Fits f.broker) :
    (f.advance c).current.Fits (f.advance c).broker := by
  obtain ⟨b, w, accepted, finished, stage, front, sent, taken⟩ := f
  cases stage with
  | queue =>
    obtain ⟨rfl, rfl⟩ : sent = [] ∧ taken = [] := h
    cases hq : b.queue.messages with
    | nil =>
      simp only [advance, Broker.advance, Stage.takes, Queue.isEmpty, hq]
      exact Round.concludes_idle _ _ _
    | cons m ms =>
      simp only [advance, Broker.advance, Stage.takes, Queue.isEmpty, hq]
      refine ⟨m, ?_, ⟨rfl, rfl, ?_⟩, rfl⟩
      · rw [hq]; rfl
      · intro s hs; cases hs
  | roster =>
    obtain ⟨m, hq, hm, rfl⟩ : ∃ m, _ ∧ Round.Holds _ m ∧ sent = [] := h
    obtain rfl : taken = [] := hm.taken
    simp only [advance, Broker.advance, Stage.takes]
    by_cases hc : b.consumers.isEmpty = true
    · rw [if_pos hc]
      exact Round.concludes_idle _ _ _
    · rw [if_neg hc]
      cases hmode : b.mode with
      | direct => exact ⟨m, hq, ⟨hm.front, rfl, hm.data⟩, rfl, hmode⟩
      | command => exact ⟨m, hq, ⟨hm.front, rfl, hm.data⟩, rfl⟩
  | next =>
    obtain ⟨m, hq, hm, rfl, hmode⟩ : ∃ m, _ ∧ Round.Holds _ m ∧ sent = [] ∧ b.mode = .direct := h
    obtain rfl : taken = [] := hm.taken
    simp only [advance, Broker.advance, Stage.takes]
    rcases b.consumers.next with ⟨_ | e, consumers⟩
    · exact Round.concludes_idle _ _ _
    · exact ⟨m, hq, ⟨hm.front, rfl, hm.data⟩, rfl, hmode⟩
  | dequeue e =>
    obtain ⟨m, hq, hm, rfl, hmode⟩ : ∃ m, _ ∧ Round.Holds _ m ∧ sent = [] ∧ b.mode = .direct := h
    obtain rfl : taken = [] := hm.taken
    obtain ⟨ms, hms⟩ := List.head?_eq_some_iff.mp hq
    simp only [advance, Broker.advance, Stage.takes, Queue.dequeue_of_front hms]
    exact ⟨hm.front, rfl, rfl, hmode⟩
  | hand e m =>
    obtain ⟨rfl, rfl, rfl, hmode⟩ : front = some m ∧ taken = [m] ∧ sent = [] ∧ b.mode = .direct := h
    simp only [advance, Broker.advance, Stage.takes, deliver_recorded]
    exact concludes_handed hmode e _
  | peek =>
    obtain ⟨m, hq, hm, rfl⟩ : ∃ m, _ ∧ Round.Holds _ m ∧ sent = [] := h
    obtain rfl : taken = [] := hm.taken
    obtain ⟨ms, hms⟩ := List.head?_eq_some_iff.mp hq
    simp only [advance, Broker.advance, Stage.takes, Queue.peek_of_front hms]
    exact ⟨hq, ⟨hm.front, rfl, hm.data⟩, rfl⟩
  | resolve m =>
    obtain ⟨hq, hm, rfl⟩ : _ ∧ Round.Holds _ m ∧ sent = [] := h
    obtain rfl : taken = [] := hm.taken
    simp only [advance, Broker.advance, Stage.takes]
    cases b.commands.resolve m.payload with
    | error _ => exact ⟨hq, ⟨hm.front, rfl, hm.data⟩, rfl, List.nodup_nil⟩
    | ok invocation => exact ⟨hq, ⟨hm.front, rfl, hm.data⟩, rfl⟩
  | list m command =>
    obtain ⟨hq, hm, rfl⟩ : _ ∧ Round.Holds _ m ∧ sent = [] := h
    obtain rfl : taken = [] := hm.taken
    exact hm.fits_proceed hq command rfl hr.nodup
  | ask m command e rest n =>
    obtain ⟨hq, hm, hc, hn⟩ : _ ∧ Round.Holds _ m ∧ _ ∧ _ := h
    obtain rfl : taken = [] := hm.taken
    simp only [advance, Broker.advance, Stage.takes]
    by_cases hs : b.subscriptions.isSubscribed e.address command = true
    · rw [if_pos hs]
      exact ⟨hq, ⟨hm.front, rfl, hm.data⟩, hc, hn⟩
    · rw [if_neg hs]
      refine hm.fits_proceed hq command hc (hn.sublist ?_)
      exact (List.sublist_cons_self _ _).append_left _
  | offer m command e rest n =>
    obtain ⟨hq, hm, hc, hn⟩ : _ ∧ Round.Holds _ m ∧ _ ∧ _ := h
    obtain rfl : taken = [] := hm.taken
    simp only [advance, Broker.advance, Stage.takes, deliver_recorded]
    generalize (c.send w e m.payload).1 = result
    have hm' : Round.Holds ⟨.offer m command e rest n, front, sent ++ [⟨e, m.payload, result⟩], []⟩ m := by
      refine ⟨hm.front, rfl, ?_⟩
      intro s hs
      rcases List.mem_append.mp hs with hs | hs
      · exact hm.data s hs
      · rw [List.mem_singleton.mp hs]
    refine hm'.fits_proceed hq command ?_ ?_
    · rw [← hc, copies, copies, List.countP_append]
      cases result <;> rfl
    · simpa [addresses] using hn
  | remove m n =>
    obtain ⟨hq, hm, h1, hc, hn⟩ : _ ∧ Round.Holds _ m ∧ _ ∧ _ ∧ _ := h
    obtain rfl : taken = [] := hm.taken
    obtain ⟨ms, hms⟩ := List.head?_eq_some_iff.mp hq
    simp only [advance, Broker.advance, Stage.takes, Queue.removeFront_of_front hms rfl]
    exact hm.concludes_dispatched h1 hc hn
  | count m =>
    obtain ⟨hq, hm, hc, hn⟩ : _ ∧ Round.Holds _ m ∧ _ ∧ _ := h
    obtain rfl : taken = [] := hm.taken
    obtain ⟨ms, hms⟩ := List.head?_eq_some_iff.mp hq
    simp only [advance, Broker.advance, Stage.takes, Queue.recordAttempt_of_front hms rfl]
    by_cases hx : 0 < b.maxAttempts ∧ b.maxAttempts ≤ m.attempts + 1
    · rw [if_pos hx]
      exact ⟨rfl, ⟨hm.front, rfl, hm.data⟩, hc, hn, hx⟩
    · rw [if_neg hx]
      exact hm.concludes_stalled hc hn
  | discard m =>
    obtain ⟨hq, hm, hc, hn, hx⟩ : _ ∧ Round.Holds _ m ∧ _ ∧ _ ∧ _ := h
    obtain rfl : taken = [] := hm.taken
    obtain ⟨ms, hms⟩ := List.head?_eq_some_iff.mp hq
    have hf : b.queue.removeFront m.seq = _ := Queue.removeFront_of_front hms rfl
    simp only [advance, Broker.advance, Stage.takes, hf]
    exact hm.concludes_dropped hc hn hx rfl
  | done p =>
    simp only [advance, Broker.advance, Stage.takes, List.append_nil]
    exact h

end Floor

/-! ## Every interleaving -/

theorem Meddling.requests_apply (t : Meddling) (b : Broker) :
    (t.apply b).requests = b.requests ++ (t.accepted b).map (·.request) := by
  unfold requests
  rw [t.apply_messages, List.map_append]

theorem Meddling.seq_apply (t : Meddling) {b : Broker} {ms : List Message}
    (hl : b.queue.lastSeq = UInt64.ofNat ms.length)
    (hs : ms.map (·.seq) = (List.range' 1 ms.length).map UInt64.ofNat) :
    (t.apply b).queue.lastSeq = UInt64.ofNat (ms ++ t.accepted b).length ∧
      (ms ++ t.accepted b).map (·.seq) = (List.range' 1 (ms ++ t.accepted b).length).map UInt64.ofNat := by
  cases t with
  | enqueue m =>
    have hm : ({ m with seq := b.queue.lastSeq + 1 } : Message).seq = UInt64.ofNat ms.length + 1 := by
      rw [← hl]
    exact seq_append_singleton hs hm
  | _ =>
    simp only [accepted, List.append_nil]
    exact ⟨hl, hs⟩

namespace Floor

variable {ω : Type} {c : Carrier ω} {f f' : Floor ω}

/-- The messages that were taken from the queue, in order. -/
def taken (f : Floor ω) : List Message := f.finished.flatMap (·.taken) ++ f.current.taken

structure Sound (mode : DispatchMode) (maxAttempts : UInt32) (f : Floor ω) : Prop where
  same_mode : f.broker.mode = mode
  same_limit : f.broker.maxAttempts = maxAttempts
  roster : f.broker.consumers.WellFormed
  fits : f.current.Fits f.broker
  finished : ∀ r ∈ f.finished, ∃ p, r.Concludes mode maxAttempts p
  conserved : f.accepted.map (·.request) = f.taken.map (·.request) ++ f.broker.requests
  lastSeq : f.broker.queue.lastSeq = UInt64.ofNat f.accepted.length
  numbered : f.accepted.map (·.seq) = (List.range' 1 f.accepted.length).map UInt64.ofNat

theorem sound_opening (mode : DispatchMode) (commands : Catalogue) (maxAttempts : UInt32) (w : ω) :
    (opening mode commands maxAttempts w).Sound mode maxAttempts := by
  refine ⟨rfl, rfl, Roster.wellFormed_empty, Round.fits_opening _, ?_, rfl, rfl, rfl⟩
  intro r hr; cases hr

section
variable {mode : DispatchMode} {maxAttempts : UInt32}

theorem Sound.advance (h : f.Sound mode maxAttempts) : (f.advance c).Sound mode maxAttempts := by
  have hm := advance_moves c.recorded f.broker (f.world, f.current.sent) f.current.stage
  obtain ⟨hmode, hmax, hlast⟩ := hm.keeps
  refine ⟨hmode.trans h.same_mode, hmax.trans h.same_limit, hm.wellFormed h.roster, fits_advance h.roster h.fits,
    h.finished, ?_, hlast.trans h.lastSeq, h.numbered⟩
  have hc := h.conserved
  rw [hm.requests, ← List.append_assoc, ← List.map_append, taken, List.append_assoc] at hc
  exact hc

theorem Sound.step (h : f.Sound mode maxAttempts) (hs : Step c f f') : f'.Sound mode maxAttempts := by
  cases hs with
  | advance => exact h.advance
  | @begin p hp =>
    refine ⟨h.same_mode, h.same_limit, h.roster, Round.fits_opening _, ?_, ?_, h.lastSeq, h.numbered⟩
    · intro r hr
      rcases List.mem_append.mp hr with hr | hr
      · exact h.finished r hr
      · have hf := h.fits
        unfold Round.Fits at hf
        rw [hp, h.same_mode, h.same_limit] at hf
        rw [List.mem_singleton.mp hr]
        exact ⟨p, hf⟩
    · have hc := h.conserved
      simp only [taken, List.flatMap_append, List.flatMap_cons, List.flatMap_nil, List.append_nil,
        Round.opening] at hc ⊢
      exact hc
  | meddle t w =>
    obtain ⟨hl, hn⟩ := t.seq_apply h.lastSeq h.numbered
    refine ⟨by rw [t.apply_mode]; exact h.same_mode, by rw [t.apply_maxAttempts]; exact h.same_limit,
      t.apply_wellFormed h.roster, h.fits.meddle t, h.finished, ?_, hl, hn⟩
    dsimp only
    rw [List.map_append, h.conserved, t.requests_apply, List.append_assoc]
    rfl

theorem Reaches.sound {start : Floor ω} (h : Reaches c start f) (h0 : start.Sound mode maxAttempts) :
    f.Sound mode maxAttempts := by
  induction h with
  | start => exact h0
  | next h hs ih => exact ih.step hs

end

/-! ## Safety -/

/-- What holds at any moment of the engine and of the rounds that it has finished. -/
structure Safe (mode : DispatchMode) (maxAttempts : UInt32) (c : Carrier ω) (f : Floor ω) : Prop where
  dequeues : ∀ e, f.current.stage = .dequeue e →
    ∃ m, f.current.front = some m ∧ f.broker.queue.dequeue.1 = .ok m
  counts : ∀ m, f.current.stage = .count m → f.current.front = some m ∧
    f.broker.queue.messages.head? = some m ∧ (f.broker.queue.recordAttempt m.seq).1 = .ok (m.attempts + 1)
  removes : ∀ m n, f.current.stage = .remove m n →
    f.current.front = some m ∧ (f.broker.queue.removeFront m.seq).1 = .ok m
  discards : ∀ m, f.current.stage = .discard m → f.current.front = some m ∧
    (f.broker.queue.removeFront m.seq).1 = .ok { m with attempts := m.attempts + 1 }
  unserved : f.current.stage = .next → f.broker.consumers.isEmpty = true →
    (f.advance c).current.stage = .done .idle ∧ (f.advance c).broker = f.broker
  once : (addresses f.current.sent).Nodup
  concludes : ∀ p, f.current.stage = .done p → f.current.Concludes mode maxAttempts p
  finished : ∀ r ∈ f.finished, ∃ p, r.Concludes mode maxAttempts p
  unmoved : ∀ r ∈ f.finished, r.taken = [] → copies r.sent = 0
  conserved : f.accepted.map (·.request) = f.taken.map (·.request) ++ f.broker.requests

end Floor

section
variable {mode : DispatchMode} {maxAttempts : UInt32} {b : Broker} {r : Round}

theorem Round.Concludes.unmoved {p : Pass} (h : r.Concludes mode maxAttempts p) (ht : r.taken = []) :
    copies r.sent = 0 := by
  cases hp : p.madeProgress with
  | true =>
    obtain ⟨m, -, hm⟩ := h.taken hp
    rw [ht] at hm
    cases hm
  | false =>
    refine h.undelivered ?_
    rintro n rfl
    cases hp

theorem Round.Concludes.taken_of_copies {p : Pass} (h : r.Concludes mode maxAttempts p)
    (hc : 0 < copies r.sent) {m : Message} (hf : r.front = some m) : r.taken.map (·.seq) = [m.seq] := by
  have hp : p.madeProgress = true := by
    apply Bool.of_not_eq_false
    intro hp
    have := h.unmoved (h.kept hp)
    omega
  obtain ⟨m', hf', ht⟩ := h.taken hp
  obtain rfl : m = m' := Option.some.inj (hf.symm.trans hf')
  have hs := congrArg (List.map Message.seq) ht
  rw [List.map_map] at hs
  exact hs

theorem Round.Fits.once (h : r.Fits b) : (addresses r.sent).Nodup := by
  unfold Round.Fits at h
  cases hs : r.stage with
  | queue =>
    rw [hs] at h
    rw [h.1]; exact List.nodup_nil
  | roster | peek =>
    rw [hs] at h
    obtain ⟨m, -, -, he⟩ := h
    rw [he]; exact List.nodup_nil
  | next | dequeue e =>
    rw [hs] at h
    obtain ⟨m, -, -, he, -⟩ := h
    rw [he]; exact List.nodup_nil
  | hand e m =>
    rw [hs] at h
    rw [h.2.2.1]; exact List.nodup_nil
  | resolve m | list m command =>
    rw [hs] at h
    rw [h.2.2]; exact List.nodup_nil
  | ask m command e rest n | offer m command e rest n =>
    rw [hs] at h
    exact h.2.2.2.of_append_left
  | remove m n =>
    rw [hs] at h
    exact h.2.2.2.2
  | count m =>
    rw [hs] at h
    exact h.2.2.2
  | discard m =>
    rw [hs] at h
    exact h.2.2.2.1
  | done p =>
    rw [hs] at h
    exact h.once

/-- A message of which copies are sent has been taken by the round, or is still at the front. -/
theorem Round.Fits.front_of_copies (h : r.Fits b) (hc : 0 < copies r.sent) {m : Message}
    (hf : r.front = some m) : r.taken.map (·.seq) = [m.seq] ∨ b.queue.messages.head? = some m := by
  have none : r.sent = [] → False := by
    intro he
    rw [he] at hc
    exact absurd hc (Nat.lt_irrefl 0)
  have held : ∀ {m'}, b.queue.messages.head? = some m' → r.Holds m' → b.queue.messages.head? = some m := by
    intro m' hq hm
    rwa [Option.some.inj (hf.symm.trans hm.front)]
  unfold Round.Fits at h
  cases hs : r.stage with
  | queue => rw [hs] at h; exact (none h.1).elim
  | roster | peek =>
    rw [hs] at h
    obtain ⟨m, -, -, he⟩ := h
    exact (none he).elim
  | next | dequeue e =>
    rw [hs] at h
    obtain ⟨m, -, -, he, -⟩ := h
    exact (none he).elim
  | hand e m => rw [hs] at h; exact (none h.2.2.1).elim
  | resolve m | list m command => rw [hs] at h; exact (none h.2.2).elim
  | ask m command e rest n | offer m command e rest n | remove m n | count m =>
    rw [hs] at h
    exact .inr (held h.1 h.2.1)
  | discard m =>
    rw [hs] at h
    rw [h.2.2.1] at hc
    exact absurd hc (Nat.lt_irrefl 0)
  | done p =>
    rw [hs] at h
    exact .inl (h.taken_of_copies hc hf)

end

namespace Floor

variable {ω : Type} {c : Carrier ω} {f : Floor ω} {mode : DispatchMode} {maxAttempts : UInt32}

theorem Sound.safety (h : f.Sound mode maxAttempts) : f.Safe mode maxAttempts c := by
  have hf := h.fits
  unfold Round.Fits at hf
  refine ⟨?_, ?_, ?_, ?_, ?_, h.fits.once, ?_, h.finished, ?_, h.conserved⟩
  · intro e he
    rw [he] at hf
    obtain ⟨m, hq, hm, -, -⟩ := hf
    obtain ⟨ms, hms⟩ := List.head?_eq_some_iff.mp hq
    exact ⟨m, hm.front, by rw [Queue.dequeue_of_front hms]⟩
  · intro m he
    rw [he] at hf
    obtain ⟨ms, hms⟩ := List.head?_eq_some_iff.mp hf.1
    exact ⟨hf.2.1.front, hf.1, by rw [Queue.recordAttempt_of_front hms rfl]⟩
  · intro m n he
    rw [he] at hf
    obtain ⟨ms, hms⟩ := List.head?_eq_some_iff.mp hf.1
    exact ⟨hf.2.1.front, by rw [Queue.removeFront_of_front hms rfl]⟩
  · intro m he
    rw [he] at hf
    obtain ⟨ms, hms⟩ := List.head?_eq_some_iff.mp hf.1
    have hr : f.broker.queue.removeFront m.seq = _ := Queue.removeFront_of_front hms rfl
    exact ⟨hf.2.1.front, by rw [hr]⟩
  · intro he hc
    have hn : f.broker.consumers.next = (.error .consumerNotFound, f.broker.consumers) := by
      unfold Roster.next
      rw [List.isEmpty_iff.mp hc]
      rfl
    unfold Floor.advance
    rw [he]
    simp only [Broker.advance, hn]
    exact ⟨trivial, trivial⟩
  · intro p he
    rw [he, h.same_mode, h.same_limit] at hf
    exact hf
  · intro r hr ht
    obtain ⟨p, hp⟩ := h.finished r hr
    exact hp.unmoved ht

/-- Below 2^64 messages, no two rounds send copies of the same one. -/
theorem Sound.dispatches_once (h : f.Sound mode maxAttempts) (hlt : f.accepted.length < 2 ^ 64) :
    (f.finished ++ [f.current]).Pairwise fun r r' => ∀ m m', r.front = some m → r'.front = some m' →
      0 < copies r.sent → 0 < copies r'.sent → m.seq ≠ m'.seq := by
  have hs := congrArg (List.map Message.seq) h.conserved
  have hn := nodup_seq h.numbered hlt
  have hseq : ∀ ms : List Message, (ms.map (·.request)).map Message.seq = ms.map (·.seq) := by
    intro ms
    rw [List.map_map]; rfl
  rw [List.map_append, requests, hseq, hseq, hseq] at hs
  rw [hs, taken, List.map_append, List.append_assoc] at hn
  obtain ⟨hfin, -, hdis⟩ := List.nodup_append.mp hn
  rw [List.map_flatMap] at hfin hdis
  refine List.pairwise_append.mpr ⟨?_, List.pairwise_singleton _ _, ?_⟩
  · refine (List.nodup_flatMap.mp hfin).2.imp_of_mem ?_
    intro r r' hr hr' hd m m' hf hf' hc hc' he
    obtain ⟨p, hp⟩ := h.finished r hr
    obtain ⟨p', hp'⟩ := h.finished r' hr'
    have hd' : List.Disjoint (r.taken.map (·.seq)) (r'.taken.map (·.seq)) := hd
    rw [hp.taken_of_copies hc hf, hp'.taken_of_copies hc' hf', he] at hd'
    exact hd' (List.mem_singleton_self _) (List.mem_singleton_self _)
  · intro r hr r' hr' m m' hf hf' hc hc'
    rw [List.mem_singleton.mp hr'] at hf' hc'
    obtain ⟨p, hp⟩ := h.finished r hr
    refine hdis m.seq (List.mem_flatMap.mpr ⟨r, hr, ?_⟩) m'.seq (List.mem_append.mpr ?_)
    · rw [hp.taken_of_copies hc hf]
      exact List.mem_singleton_self _
    · rcases h.fits.front_of_copies hc' hf' with ht | hq
      · rw [ht]
        exact .inl (List.mem_singleton_self _)
      · exact .inr (List.mem_map_of_mem (List.mem_of_head? hq))

/-- **A pass is safe among readers**, whatever they do between its operations. -/
theorem Reaches.safe {commands : Catalogue} {w : ω} (h : Reaches c (opening mode commands maxAttempts w) f) :
    f.Safe mode maxAttempts c ∧ (f.accepted.length < 2 ^ 64 →
      (f.finished ++ [f.current]).Pairwise fun r r' => ∀ m m', r.front = some m → r'.front = some m' →
        0 < copies r.sent → 0 < copies r'.sent → m.seq ≠ m'.seq) := by
  have hs := h.sound (sound_opening mode commands maxAttempts w)
  exact ⟨hs.safety, hs.dispatches_once⟩

/-- Its only subscriber leaves after a pass has listed the consumers, and another one comes before the next
pass. The request is stalled once and delivered once. -/
theorem safe_subscriber_leaves : ∃ (c : Carrier Unit) (f : Floor Unit),
    Reaches c (opening .command (.ofNames ["ping"]) 16 ()) f ∧ f.Safe .command 16 c ∧
    f.finished.map (·.stage) = [.done .stalled] ∧ f.current.stage = .done (.dispatched 1) ∧
    addresses f.current.sent = ["second"] ∧ f.taken.map (·.payload) = [toBytes "ping"] ∧
    f.broker.requests.map (·.payload) = [toBytes "ping/2"] := by
  let c : Carrier Unit := ⟨fun w _ _ => (.ok 7, w)⟩
  have h0 : Reaches c (opening .command (.ofNames ["ping"]) 16 ()) (opening .command (.ofNames ["ping"]) 16 ()) :=
    .start
  have h1 := ((h0.next (.meddle (.add ⟨"first", 0, .far⟩) ())).next (.meddle (.subscribe "first" "ping") ())).next
    (.meddle (.enqueue ⟨"asker", 3, toBytes "ping", 0, 0⟩) ())
  -- the consumers are listed
  have h2 := ((((h1.next .advance).next .advance).next .advance).next .advance).next .advance
  have h3 := ((h2.next (.meddle (.remove "first") ())).next (.meddle (.dropAll "first") ())).next
    (.meddle (.enqueue ⟨"asker", 4, toBytes "ping/2", 0, 0⟩) ())
  have h4 := ((h3.next .advance).next .advance).next (.begin (p := .stalled) (by decide +kernel))
  have h5 := (h4.next (.meddle (.add ⟨"second", 1, .far⟩) ())).next (.meddle (.subscribe "second" "ping") ())
  have h6 := ((((((((h5.next .advance).next .advance).next .advance).next .advance).next .advance).next
    .advance).next .advance).next .advance)
  exact ⟨c, _, h6, h6.safe.1, by decide +kernel, by decide +kernel, by decide +kernel, by decide +kernel,
    by decide +kernel⟩

end Floor

end Switchboard.Broker
