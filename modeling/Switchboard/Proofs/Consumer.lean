import Mathlib.Algebra.Group.Nat.Defs
import Switchboard.Consumer
import Switchboard.Proofs.Carrier
import Switchboard.Proofs.Command

/-!
# What a consumer sends

A consumer sends the hello token, control messages, and the answers of its handler to what the handler
was given: `Reacts` says which at each event. Read as a packet, a control message has an id of at least
2^30.
-/

namespace Switchboard

theorem Control.le_id (m : Control) {p : Packet} (h : Packet.decode m.toBytes = .ok p) :
    2 ^ 30 ≤ p.id.toNat := by
  obtain ⟨payload, hp⟩ := m.decode_toBytes
  obtain rfl := Except.ok.inj (hp.symm.trans h)
  cases m with
  | subscribe command => exact (by decide : 2 ^ 30 ≤ (0x73627573 : UInt32).toNat)
  | unsubscribe command => exact (by decide : 2 ^ 30 ≤ (0x75736E75 : UInt32).toNat)

namespace Consumer

variable {ω : Type}

/-- A payload that a consumer sends when its handler was given `given`. -/
inductive Says (handler : Handler) (given : Option Parcel) (data : Bytes) : Prop
  | hello (hd : data = Switchboard.hello)
  | control (m : Control) (hd : data = m.toBytes)
  | answer {p : Parcel} {answer : Bytes} (hg : given = some p) (ha : handler p = some answer)
      (hn : answer ≠ []) (hd : data = Packet.encode ⟨p.id, answer⟩)

theorem subscribeAll_sends (c : Carrier ω) (k : Consumer) : ∀ (commands : List String) (w : ω),
    ∃ sent w', c.Sends w sent w' ∧ subscribeAll c k commands w = w' ∧
      (∀ log, subscribeAll c.recorded k commands (w, log) = (w', log ++ sent)) ∧
      (∀ s ∈ sent, s.endpoint = k.broker) ∧
      sent.map (·.data) = commands.map fun command => (Control.subscribe command).toBytes
  | [], w => ⟨[], w, .nil w, rfl, fun log => by simp [subscribeAll], fun s hs => (by cases hs), rfl⟩
  | command :: commands, w => by
    obtain ⟨sent, w', hs, he, hr, hb, hd⟩ := subscribeAll_sends c k commands
      (c.send w k.broker (Control.subscribe command).toBytes).2
    refine ⟨⟨k.broker, (Control.subscribe command).toBytes, _⟩ :: sent, w', .cons hs, he, fun log => ?_, ?_, ?_⟩
    · simp only [subscribeAll, control, Carrier.recorded_send]
      rw [hr, List.append_assoc, List.singleton_append]
    · intro s hm
      rcases List.mem_cons.mp hm with rfl | hm
      · rfl
      · exact hb s hm
    · rw [List.map_cons, List.map_cons, hd]

/-- What is sent for a parcel: the answer of the handler, unless it is empty. -/
def replies (handler : Handler) (p : Parcel) : List Bytes :=
  match handler p with
  | some (x :: xs) => [Packet.encode ⟨p.id, x :: xs⟩]
  | some [] | none => []

theorem mem_replies {handler : Handler} {p : Parcel} {data : Bytes} : data ∈ replies handler p ↔
    ∃ answer, handler p = some answer ∧ answer ≠ [] ∧ data = Packet.encode ⟨p.id, answer⟩ := by
  unfold replies
  cases handler p with
  | none => simp
  | some answer => cases answer <;> simp

theorem process_sends (c : Carrier ω) (handler : Handler) (k : Consumer) (p : Parcel) (w : ω) :
    ∃ sent w', c.Sends w sent w' ∧ process c handler k p w = w' ∧
      (∀ log, process c.recorded handler k p (w, log) = (w', log ++ sent)) ∧
      (∀ s ∈ sent, s.endpoint = k.broker) ∧ sent.map (·.data) = replies handler p := by
  unfold process replies
  cases ha : handler p with
  | none => exact ⟨[], w, .nil w, rfl, fun log => by simp, fun s hs => (by cases hs), rfl⟩
  | some answer =>
    cases answer with
    | nil => exact ⟨[], w, .nil w, rfl, fun log => by simp, fun s hs => (by cases hs), rfl⟩
    | cons x xs =>
      refine ⟨_, _, .single c w k.broker (Packet.encode ⟨p.id, x :: xs⟩), rfl, fun log => rfl, fun s hs => ?_, rfl⟩
      rw [List.mem_singleton.mp hs]

/-- What a consumer does at an event: what its handler is given, and the payloads it sends. -/
inductive Reacts (handler : Handler) (k : Consumer) : Event → Option Parcel → List Bytes → Consumer → Prop
  | connected : Reacts handler k .connected none [Switchboard.hello] k
  | disconnected : Reacts handler k .disconnected none [] { k with registered := false }
  | registered (id : UInt32) (hk : k.registered = false) :
      Reacts handler k (.received id helloAck) none
        (k.commands.map fun command => (Control.subscribe command).toBytes) { k with registered := true }
  | delivered (id : UInt32) (data : Bytes) (hk : data = helloAck → k.registered = true) :
      Reacts handler k (.received id data) (some ⟨id, data⟩) (replies handler ⟨id, data⟩) k

theorem handleEvent_reacts (c : Carrier ω) (handler : Handler) (k : Consumer) (event : Event) (w : ω) :
    ∃ sent given k' w', c.Sends w sent w' ∧ k.handleEvent c handler event w = (given, k', w') ∧
      (∀ log, k.handleEvent c.recorded handler event (w, log) = (given, k', w', log ++ sent)) ∧
      (∀ s ∈ sent, s.endpoint = k.broker) ∧ Reacts handler k event given (sent.map (·.data)) k' := by
  unfold handleEvent
  cases event with
  | connected =>
    refine ⟨_, none, k, _, .single c w k.broker Switchboard.hello, rfl, fun log => rfl, fun s hs => ?_, .connected⟩
    rw [List.mem_singleton.mp hs]
  | disconnected =>
    exact ⟨[], none, _, w, .nil w, rfl, fun log => by simp, fun s hs => (by cases hs), .disconnected⟩
  | received id data =>
    dsimp only
    split
    · next hc =>
      obtain ⟨hk, rfl⟩ : k.registered = false ∧ data = helloAck := by simpa using hc
      obtain ⟨sent, w', hs, he, hr, hb, hd⟩ := subscribeAll_sends c k k.commands w
      refine ⟨sent, none, _, w', hs, by rw [he], fun log => by rw [hr], hb, ?_⟩
      rw [hd]
      exact .registered id hk
    · next hc =>
      obtain ⟨sent, w', hs, he, hr, hb, hd⟩ := process_sends c handler k ⟨id, data⟩ w
      refine ⟨sent, _, k, w', hs, by rw [he], fun log => by rw [hr], hb, ?_⟩
      rw [hd]
      exact .delivered id data fun hdata => by simpa [hdata] using hc

theorem handleEvent_ack (c : Carrier ω) (handler : Handler) {k : Consumer} (hk : k.registered = false) (id : UInt32)
    (w : ω) : k.handleEvent c handler (.received id helloAck) w =
      (none, { k with registered := true }, subscribeAll c k k.commands w) := by
  simp [handleEvent, hk]

theorem handleEvent_registered (c : Carrier ω) (handler : Handler) {k : Consumer} (hk : k.registered = true)
    (id : UInt32) (data : Bytes) (w : ω) : k.handleEvent c handler (.received id data) w =
      (some ⟨id, data⟩, k, process c handler k ⟨id, data⟩ w) := by
  simp [handleEvent, hk]

theorem handleEvent_configuration (c : Carrier ω) (handler : Handler) (k : Consumer) (event : Event) (w : ω) :
    (k.handleEvent c handler event w).2.1.broker = k.broker ∧
      (k.handleEvent c handler event w).2.1.commands = k.commands := by
  cases event with
  | connected => exact ⟨rfl, rfl⟩
  | disconnected => exact ⟨rfl, rfl⟩
  | received id data =>
    unfold handleEvent
    dsimp only
    split
    · exact ⟨rfl, rfl⟩
    · exact ⟨rfl, rfl⟩

theorem handleEvent_sends (c : Carrier ω) (handler : Handler) (k : Consumer) (event : Event) (w : ω) :
    ∃ sent given k' w', c.Sends w sent w' ∧ k.handleEvent c handler event w = (given, k', w') ∧
      (∀ log, k.handleEvent c.recorded handler event (w, log) = (given, k', w', log ++ sent)) ∧
      k'.broker = k.broker ∧ (∀ p, given = some p → event = .received p.id p.payload) ∧
      ∀ s ∈ sent, s.endpoint = k.broker ∧ Says handler given s.data := by
  obtain ⟨sent, given, k', w', hs, he, hrec, hb, hr⟩ := handleEvent_reacts c handler k event w
  have said : ∀ s ∈ sent, s.data ∈ sent.map (·.data) := fun s hm => List.mem_map_of_mem hm
  generalize sent.map (·.data) = payloads at hr said
  refine ⟨sent, given, k', w', hs, he, hrec, ?_, ?_, fun s hm => ⟨hb s hm, ?_⟩⟩
  · cases hr <;> rfl
  · rintro p rfl
    cases hr
    rfl
  · have hd := said s hm
    cases hr with
    | connected => exact .hello (List.mem_singleton.mp hd)
    | disconnected => cases hd
    | registered id hk =>
      obtain ⟨command, -, hc⟩ := List.mem_map.mp hd
      exact .control (.subscribe command) hc.symm
    | delivered id data hk =>
      obtain ⟨answer, ha, hn, hd⟩ := mem_replies.mp hd
      exact .answer rfl ha hn hd

end Consumer

end Switchboard
