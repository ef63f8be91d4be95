import Switchboard.Proofs.Attachment.Streams
import Switchboard.Proofs.Broker.Consistency
import Switchboard.Proofs.Consumer
import Switchboard.Proofs.Packet

/-!
# What a consumer asks for

The broker reads the name in a control message up to the first separator, and a message without a name as
none (`Control.ofBytes?_toBytes_eq`). `Control.wanted` is what is left to want after a list of messages. On
their way to the broker they stand among answers, and answers to the first 2^30 copies are no control
messages (`Asks`).
-/

namespace Switchboard

/-- A name up to its first separator. -/
def Command.cut (name : String) : String := .ofList (Fields.split separator name.toList).1

namespace Control

def cut : Control → Control
  | subscribe name => subscribe (Command.cut name)
  | unsubscribe name => unsubscribe (Command.cut name)

/-- The names that are wanted after one more message. -/
def revise (names : List String) (m : Control) : List String :=
  if m.cut.target = "" then names
  else match m.cut with
    | subscribe name => names.insert name
    | unsubscribe name => names.filter fun other => other ≠ name

/-- The names that are wanted after the messages, in this order. -/
def wanted (ms : List Control) : List String := ms.foldl revise []

theorem wanted_snoc (ms : List Control) (m : Control) : wanted (ms ++ [m]) = revise (wanted ms) m :=
  List.foldl_append ..

theorem cut_word (m : Control) : m.cut.word = m.word := by cases m <;> rfl

theorem cut_target (m : Control) : m.cut.target = Command.cut m.target := by cases m <;> rfl

theorem ofBytes?_toBytes_eq (m : Control) :
    ofBytes? m.toBytes = if m.cut.target = "" then none else some m.cut := by
  have hc : Command.ofBytes m.toBytes = .ok ⟨m.word, m.cut.target ::
      (Fields.split Command.separator m.target.toList).2.map .ofList⟩ := by
    rw [command_of_toBytes, cut_target]
    rfl
  by_cases ht : m.cut.target = ""
  · rw [if_pos ht]
    unfold ofBytes?
    rw [hc, ht]
    rfl
  · rw [if_neg ht]
    rw [← cut_word] at hc
    exact ofBytes?_of_command ht hc

/-- Read as a packet, a control message has a large id, whatever follows its name. -/
theorem le_id_of_ofBytes? {data : Bytes} {m : Control} (h : ofBytes? data = some m) {p : Packet}
    (hp : Packet.decode data = .ok p) : 2 ^ 30 ≤ p.id.toNat := by
  obtain ⟨-, -, hn⟩ := names_of_ofBytes? h
  obtain ⟨rest, hr⟩ : ∃ rest, data = m.toBytes ++ rest := by
    rcases hn with hn | ⟨rest, hn⟩
    · exact ⟨[], by rw [List.append_nil]; exact hn⟩
    · rw [toBytes_append] at hn
      exact ⟨Switchboard.toBytes "/" ++ rest, by rw [← hn, List.append_assoc]; rfl⟩
  obtain ⟨payload, hd⟩ := m.decode_toBytes
  have he : data = Packet.encode ⟨m.wordId, payload ++ rest⟩ := by
    rw [hr, ← Packet.encode_of_decode hd]
    simp [Packet.encode]
  have hid : p.id = m.wordId := by
    rw [he, Packet.decode_encode] at hp
    rw [← Except.ok.inj hp]
  rw [hid]
  exact m.le_id hd

end Control

theorem le_id_of_hello {p : Packet} (h : p.encode = hello) : 2 ^ 30 ≤ p.id.toNat := by
  have hh : hello = Packet.encode ⟨0x736E6F43, toBytes "umer"⟩ := by decide +kernel
  have hd := Packet.decode_encode p
  rw [h, hh, Packet.decode_encode] at hd
  rw [← Except.ok.inj hd]
  decide

/-- The messages of a consumer in the stream to the broker, in order and among its answers. -/
inductive Asks : List Event → List Control → Prop
  | nil : Asks [] []
  | control (id : UInt32) (m : Control) {events : List Event} {ms : List Control} (h : Asks events ms) :
      Asks (.received id m.toBytes :: events) (m :: ms)
  | answer (id : UInt32) {p : Packet} (hp : p.id.toNat < 2 ^ 30) {events : List Event} {ms : List Control}
      (h : Asks events ms) : Asks (.received id p.encode :: events) ms

theorem Asks.append {events events' : List Event} {ms ms' : List Control} (h : Asks events ms)
    (h' : Asks events' ms') : Asks (events ++ events') (ms ++ ms') := by
  induction h with
  | nil => exact h'
  | control id m _ ih => exact .control id m ih
  | answer id hp _ ih => exact .answer id hp ih

theorem asks_of_controls : ∀ {ss : List Sending} {events : List Event} {ms : List Control},
    List.Forall₂ Sending.ArrivesAs ss events → ss.map (·.data) = ms.map Control.toBytes → Asks events ms
  | _, _, [], .nil, _ => .nil
  | x :: _, _, m :: ms, .cons ⟨id, he⟩ h, hd => by
    obtain ⟨hx, hd⟩ := List.cons.inj hd
    have hx : x.data = m.toBytes := hx
    rw [he, hx]
    exact .control id m (asks_of_controls h hd)

theorem asks_of_answers : ∀ {ss : List Sending} {events : List Event}, List.Forall₂ Sending.ArrivesAs ss events →
    (∀ x ∈ ss, ∃ p : Packet, p.id.toNat < 2 ^ 30 ∧ x.data = p.encode) → Asks events []
  | _, _, .nil, _ => .nil
  | _, _, .cons ⟨id, he⟩ h, hp => by
    obtain ⟨p, hlt, hd⟩ := hp _ (List.mem_cons_self ..)
    rw [he, hd]
    exact .answer id hlt (asks_of_answers h fun x hx => hp x (List.mem_cons_of_mem _ hx))

/-! ## What the broker makes of it -/

namespace Broker

variable {b b' : Broker} {e : Endpoint} {id : UInt32} {sent : List Sending} {r : Except Failure Inbound}

theorem Reads.asked {m : Control} (hr : Reads b e id m.toBytes sent r b')
    (hc : b.consumers.contains e.address = true) (hm : b.mode = .command) (hd : b.subscriptions.Distinct)
    (ha : ∀ n o, b.answers.get? ⟨e.address, n⟩ = some o → n.toNat < 2 ^ 30) {names : List String}
    (hn : ∀ command, b.subscriptions.isSubscribed e.address command = true ↔ command ∈ names) :
    ∀ command, b'.subscriptions.isSubscribed e.address command = true ↔ command ∈ m.revise names := by
  have hid : ∀ {p o}, Packet.decode m.toBytes = .ok p → b.answers.get? ⟨e.address, p.id⟩ ≠ some o := by
    intro p o hp ho
    have hlt := ha p.id o ho
    have hle := m.le_id hp
    omega
  intro command
  have ht := m.ofBytes?_toBytes_eq
  unfold Control.revise
  cases hr with
  | @controlled p control hh hc' hp ho hm' hk =>
    rw [ht] at hk
    by_cases hne : m.cut.target = ""
    · rw [if_pos hne] at hk
      cases hk
    · rw [if_neg hne] at hk ⊢
      obtain rfl := Option.some.inj hk
      cases m with
      | subscribe name =>
        simp only [applyControl, Control.cut, wake, meet_subscriptions, Subscriptions.isSubscribed_subscribe,
          List.mem_insert_iff, hn, true_and]
      | unsubscribe name =>
        simp only [applyControl, Control.cut, meet_subscriptions, hd.isSubscribed_unsubscribe,
          List.mem_filter, decide_eq_true_eq, hn, true_and]
  | unmatched hh hc' hp ho hk =>
    rcases hk with hk | hk
    · rw [hm] at hk
      cases hk
    · rw [ht] at hk
      by_cases hne : m.cut.target = ""
      · rw [if_pos hne, meet_subscriptions]
        exact hn command
      · rw [if_neg hne] at hk
        cases hk
  | malformed hh hc' hp =>
    obtain ⟨payload, hd⟩ := m.decode_toBytes
    rw [hp] at hd
    cases hd
  | unreachable hh hc' hp ho => exact absurd ho (hid hp)
  | forwarded hh hc' hp ho => exact absurd ho (hid hp)
  | duplicate hh | registered hh => exact absurd hh m.toBytes_ne_hello
  | rejected hh hc' | enqueued hh hc' =>
    rw [hc] at hc'
    cases hc'

theorem Reads.answered {p : Packet} (hr : Reads b e id p.encode sent r b') (hp : p.id.toNat < 2 ^ 30) :
    b'.subscriptions = b.subscriptions := by
  cases hr with
  | @controlled p' control hh hc hp' ho hm hk =>
    rw [Packet.decode_encode] at hp'
    obtain rfl := Except.ok.inj hp'
    have hle := Control.le_id_of_ofBytes? hk (Packet.decode_encode p)
    omega
  | _ => simp

end Broker

end Switchboard
