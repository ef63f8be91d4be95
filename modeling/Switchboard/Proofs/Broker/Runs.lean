import Switchboard.Proofs.Broker.Steps
import Switchboard.Proofs.History
import Switchboard.Proofs.Roster

/-!
# Runs of a broker

A run is any sequence of operations, each over connections of its own, so that sends may come to
anything. It is kept as the list of its turns: what happened, what was sent, and the broker before and
after. `Run.induct` reduces a fact about runs to one about the cases of a turn, and `Run.sound` is what
every run keeps.
-/

namespace Switchboard.Broker

/-- What a broker can be asked to do. The dispatch loop resumes when it was woken, and the catalogue is
open to changes from outside. -/
inductive Operation where
  | event (e : Endpoint) (event : Event)
  | data (e : Endpoint) (id : UInt32) (data : Bytes)
  | disconnect (a : Address)
  | pass
  | resume
  | recatalogue (commands : Catalogue)

inductive Outcome where
  | connected (e : Endpoint)
  | disconnected (a : Address)
  | read (e : Endpoint) (id : UInt32) (data : Bytes) (result : Except Failure Inbound)
  | passed (pass : Pass)
  | resumed
  | recatalogued

structure Turn where
  before : Broker
  outcome : Outcome
  sent : List Sending
  after : Broker

section
variable {ω : Type}

def eventOutcome (c : Carrier ω) (w : ω) (b : Broker) (e : Endpoint) : Event → Outcome
  | .connected => .connected e
  | .disconnected => .disconnected e.address
  | .received id data => .read e id data (handleData c b e id data w).1

/-- Perform an operation over `c`, with the connections in state `w`. -/
def turn (c : Carrier ω) (w : ω) (b : Broker) : Operation → Turn
  | .event e event =>
    let r := handleEvent c.recorded b e event (w, [])
    ⟨b, eventOutcome c w b e event, r.2.2, r.1⟩
  | .data e id data =>
    let r := handleData c.recorded b e id data (w, [])
    ⟨b, .read e id data r.1, r.2.2.2, r.2.1⟩
  | .disconnect a => ⟨b, .disconnected a, [], b.disconnect a⟩
  | .pass =>
    let r := dispatch c.recorded b (w, [])
    ⟨b, .passed r.1, r.2.2.2, r.2.1⟩
  | .resume => ⟨b, .resumed, [], { b with woken := false }⟩
  | .recatalogue commands => ⟨b, .recatalogued, [], { b with commands }⟩

/-- Perform an operation without a record of what is sent. -/
def perform (c : Carrier ω) (w : ω) (b : Broker) : Operation → Broker × ω
  | .event e event => handleEvent c b e event w
  | .data e id data => (handleData c b e id data w).2
  | .disconnect a => (b.disconnect a, w)
  | .pass => (dispatch c b w).2
  | .resume => ({ b with woken := false }, w)
  | .recatalogue commands => ({ b with commands }, w)

/-- The cases of a turn. -/
inductive Turn.Occurs : Turn → Prop
  | connected (b : Broker) (e : Endpoint) : Occurs ⟨b, .connected e, [], b.connect e⟩
  | disconnected (b : Broker) (a : Address) : Occurs ⟨b, .disconnected a, [], b.disconnect a⟩
  | read {b b' : Broker} {e : Endpoint} {id : UInt32} {data : Bytes} {sent : List Sending}
      {r : Except Failure Inbound} (h : Reads b e id data sent r b') :
      Occurs ⟨b, .read e id data r, sent, b'⟩
  | passed {b b' : Broker} {sent : List Sending} {p : Pass} (h : Passes b sent p b') :
      Occurs ⟨b, .passed p, sent, b'⟩
  | resumed (b : Broker) : Occurs ⟨b, .resumed, [], { b with woken := false }⟩
  | recatalogued (b : Broker) (commands : Catalogue) :
      Occurs ⟨b, .recatalogued, [], { b with commands }⟩

theorem turn_before (c : Carrier ω) (w : ω) (b : Broker) (op : Operation) : (b.turn c w op).before = b := by
  cases op <;> rfl

theorem turn_occurs (c : Carrier ω) (w : ω) (b : Broker) (op : Operation) : (b.turn c w op).Occurs := by
  cases op with
  | event e event =>
    cases event with
    | connected => exact .connected b e
    | disconnected => exact .disconnected b e.address
    | received id data =>
      obtain ⟨sent, r, b', w', -, hd, hr, h⟩ := handleData_reads c b e id data w
      simp only [turn, handleEvent, eventOutcome, hd, hr]
      exact .read h
  | data e id data =>
    obtain ⟨sent, r, b', w', -, -, hr, h⟩ := handleData_reads c b e id data w
    simp only [turn, hr]
    exact .read h
  | disconnect a => exact .disconnected b a
  | pass =>
    obtain ⟨sent, p, b', w', -, -, hr, h⟩ := dispatch_passes c b w
    simp only [turn, hr]
    exact .passed h
  | resume => exact .resumed b
  | recatalogue commands => exact .recatalogued b commands

theorem turn_performs (c : Carrier ω) (w : ω) (b : Broker) (op : Operation) :
    (b.turn c w op).after = (b.perform c w op).1 ∧ c.Sends w (b.turn c w op).sent (b.perform c w op).2 := by
  cases op with
  | event e event =>
    cases event with
    | connected => exact ⟨rfl, .nil w⟩
    | disconnected => exact ⟨rfl, .nil w⟩
    | received id data =>
      obtain ⟨sent, r, b', w', hs, hd, hr, -⟩ := handleData_reads c b e id data w
      simp only [turn, perform, handleEvent, hd, hr]
      exact ⟨trivial, hs⟩
  | data e id data =>
    obtain ⟨sent, r, b', w', hs, hd, hr, -⟩ := handleData_reads c b e id data w
    simp only [turn, perform, hd, hr]
    exact ⟨trivial, hs⟩
  | pass =>
    obtain ⟨sent, p, b', w', hs, hd, hr, -⟩ := dispatch_passes c b w
    simp only [turn, perform, hd, hr]
    exact ⟨trivial, hs⟩
  | disconnect a => exact ⟨rfl, .nil w⟩
  | resume => exact ⟨rfl, .nil w⟩
  | recatalogue commands => exact ⟨rfl, .nil w⟩

end

/-! ## What a turn shows -/

/-- The message that a turn puts into the queue. -/
def Turn.enqueued? (t : Turn) : Option Message :=
  match t.outcome with
  | .read e id data (.ok (.enqueued seq)) => some ⟨e.address, id, data, seq, 0⟩
  | _ => none

theorem enqueued?_eq_none {b b' : Broker} {sent : List Sending} {e : Endpoint} {id : UInt32} {data : Bytes}
    {r : Except Failure Inbound} (hr : ∀ seq, r ≠ .ok (.enqueued seq)) :
    Turn.enqueued? ⟨b, .read e id data r, sent, b'⟩ = none := by
  unfold Turn.enqueued?
  split
  · next h => cases h; exact absurd rfl (hr _)
  · rfl

/-- The message that a pass has before it. -/
def Turn.front? (t : Turn) : Option Message :=
  match t.outcome with
  | .passed _ => t.before.queue.messages.head?
  | _ => none

/-- What a pass delivered: who got a copy, and under which id. -/
def Turn.deliveries (t : Turn) : List Delivery :=
  match t.outcome with
  | .passed _ => t.sent.filterMap (·.delivery?)
  | _ => []

/-- A run from `start` through the given turns. -/
inductive Run (start : Broker) : List Turn → Broker → Prop
  | start : Run start [] start
  | next {ω : Type} {turns : List Turn} {b : Broker} (h : Run start turns b) (c : Carrier ω) (w : ω)
      (op : Operation) : Run start (turns ++ [b.turn c w op]) (b.turn c w op).after

theorem Run.induct {start : Broker} {P : List Turn → Broker → Prop} (base : P [] start)
    (step : ∀ turns t, Run start turns t.before → t.Occurs → P turns t.before → P (turns ++ [t]) t.after)
    {turns : List Turn} {b : Broker} (h : Run start turns b) : P turns b := by
  induction h with
  | start => exact base
  | @next ω turns b h c w op ih =>
    have hb := turn_before c w b op
    exact step turns _ (by rw [hb]; exact h) (turn_occurs c w b op) (by rw [hb]; exact ih)

theorem Run.of_split {start : Broker} {turns : List Turn} {b : Broker} (h : Run start turns b) :
    ∀ {past t future}, turns = past ++ t :: future → t.Occurs ∧ Run start past t.before := by
  refine Run.induct (P := fun turns _ => ∀ {past t future}, turns = past ++ t :: future →
    t.Occurs ∧ Run start past t.before) (fun hs => ?_) (fun turns t hr ht ih => ?_) h
  · simp at hs
  · intro past t' future hs
    rcases snoc_split hs with ⟨rfl, rfl⟩ | ⟨future', -, hs⟩
    · exact ⟨ht, hr⟩
    · exact ih hs

theorem Run.of_mem {start : Broker} {turns : List Turn} {b : Broker} (h : Run start turns b) {t : Turn}
    (ht : t ∈ turns) : t.Occurs ∧ ∃ past future, turns = past ++ t :: future ∧ Run start past t.before := by
  obtain ⟨past, future, hs⟩ := List.append_of_mem ht
  obtain ⟨ho, hp⟩ := h.of_split hs
  exact ⟨ho, past, future, hs, hp⟩

theorem Turn.Occurs.settings {t : Turn} (ht : t.Occurs) :
    t.after.mode = t.before.mode ∧ t.after.maxAttempts = t.before.maxAttempts := by
  cases ht with
  | read hr =>
    cases hr with
    | @controlled p control => cases control <;> simp [applyControl, wake]
    | _ => simp
  | passed hp => cases hp <;> exact ⟨rfl, rfl⟩
  | _ => exact ⟨rfl, rfl⟩

section
variable {start : Broker} {turns : List Turn} {b : Broker}

theorem Run.settings (h : Run start turns b) : b.mode = start.mode ∧ b.maxAttempts = start.maxAttempts := by
  apply Run.induct (P := fun _ b => b.mode = start.mode ∧ b.maxAttempts = start.maxAttempts) ⟨rfl, rfl⟩ ?_ h
  intro turns t _ ht ih
  exact ⟨ht.settings.1.trans ih.1, ht.settings.2.trans ih.2⟩

theorem Run.mode (h : Run start turns b) : b.mode = start.mode := h.settings.1

theorem Run.maxAttempts (h : Run start turns b) : b.maxAttempts = start.maxAttempts := h.settings.2

end

/-! ## What every run keeps -/

structure Sound (b : Broker) : Prop where
  roster : b.consumers.WellFormed
  /-- Every consumer is a connected peer. -/
  known : ∀ a, b.consumers.contains a = true → ∃ e, b.peers.get? a = some e

theorem sound_fresh (mode : DispatchMode) (commands : Catalogue) (maxAttempts : UInt32) :
    (fresh mode commands maxAttempts).Sound :=
  ⟨Roster.wellFormed_empty, fun a h => by cases h⟩

section
variable {b b' : Broker} {sent : List Sending}

theorem Sound.meet (h : b.Sound) (e : Endpoint) (a : Address) (ha : b.consumers.contains a = true) :
    ∃ e', (b.meet e).peers.get? a = some e' := by
  obtain ⟨e', he⟩ := h.known a ha
  exact ⟨e', by rw [meet_get?, he]; simp⟩

theorem Sound.connect (h : b.Sound) (e : Endpoint) : (b.connect e).Sound := by
  refine ⟨h.roster, fun a ha => ?_⟩
  obtain ⟨e', he⟩ := h.known a ha
  simp only [Broker.connect, Dictionary.get?_insert]
  split
  · exact ⟨e, rfl⟩
  · exact ⟨e', he⟩

theorem Sound.disconnect (h : b.Sound) (a : Address) : (b.disconnect a).Sound := by
  refine ⟨h.roster.remove a, fun a' ha' => ?_⟩
  obtain ⟨hne, hc⟩ := (h.roster.contains_remove a a').mp ha'
  obtain ⟨e, he⟩ := h.known a' hc
  exact ⟨e, by simp only [Broker.disconnect, Dictionary.get?_erase, if_neg hne, he]⟩

theorem Sound.reads (h : b.Sound) {e : Endpoint} {id : UInt32} {data : Bytes} {r : Except Failure Inbound}
    (hr : Reads b e id data sent r b') : b'.Sound := by
  cases hr with
  | registered hh hc =>
    refine ⟨h.roster.add hc, fun a ha => ?_⟩
    by_cases hae : a = e.address
    · subst hae
      rw [meet_get?]
      cases hp : b.peers.get? e.address with
      | none => exact ⟨e, by simp⟩
      | some e' => exact ⟨e', by simp⟩
    · refine h.meet e a ?_
      simpa [Roster.contains, hae] using ha
  | @controlled p control =>
    cases control <;> exact ⟨by simpa [applyControl, wake] using h.roster,
      fun a ha => h.meet e a (by simpa [applyControl, wake] using ha)⟩
  | _ => exact ⟨by simpa using h.roster, fun a ha => h.meet e a (by simpa using ha)⟩

theorem Sound.passes (h : b.Sound) {p : Pass} (hp : Passes b sent p b') : b'.Sound := by
  cases hp with
  | direct hm hq he r => exact ⟨h.roster.next he, h.known⟩
  | _ => exact ⟨h.roster, h.known⟩

theorem Turn.Occurs.sound {t : Turn} (ht : t.Occurs) (h : t.before.Sound) : t.after.Sound := by
  cases ht with
  | connected b e => exact h.connect e
  | disconnected b a => exact h.disconnect a
  | read hr => exact h.reads hr
  | passed hp => exact h.passes hp
  | resumed b => exact ⟨h.roster, h.known⟩
  | recatalogued b commands => exact ⟨h.roster, h.known⟩

end

theorem Run.sound {start : Broker} (h0 : start.Sound) {turns : List Turn} {b : Broker}
    (h : Run start turns b) : b.Sound :=
  Run.induct (P := fun _ b => b.Sound) h0 (fun _ _ _ ht ih => ht.sound ih) h

end Switchboard.Broker
