import Mathlib.Data.List.Perm.Subperm
import Switchboard.Proofs.Broker.Conservation
import Switchboard.Proofs.Broker.Fanout

/-!
# The tables of a broker agree

A broker's tables are changed one after the other, each by different operations, and by every endpoint of
an address. `Tidy` is what each turn keeps of the subscriptions, beside what `Sound` says of the consumers
and the peers and `Loop.Resolvable` of the queue. Together they give `Run.tables_agree`.
-/

namespace Switchboard.Broker

structure Tidy (b : Broker) : Prop where
  occupied : b.subscriptions.Occupied
  registered : ∀ a command, b.subscriptions.isSubscribed a command = true → b.consumers.contains a = true
  named : ∀ a command, b.subscriptions.isSubscribed a command = true →
    command ≠ "" ∧ Command.separator ∉ command.toList
  direct : b.mode = .direct → ∀ a command, b.subscriptions.isSubscribed a command = false

theorem tidy_fresh (mode : DispatchMode) (commands : Catalogue) (maxAttempts : UInt32) :
    (fresh mode commands maxAttempts).Tidy := by
  refine ⟨Subscriptions.occupied_empty, ?_, ?_, ?_⟩
  · intro a command h; cases h
  · intro a command h; cases h
  · intro _ a command; rfl

section
variable {b b' : Broker} {sent : List Sending}

theorem Tidy.congr (h : b.Tidy) (hm : b'.mode = b.mode) (hs : b'.subscriptions = b.subscriptions)
    (hc : ∀ a, b.consumers.contains a = true → b'.consumers.contains a = true) : b'.Tidy := by
  refine ⟨?_, ?_, ?_, ?_⟩
  · rw [hs]; exact h.occupied
  · intro a command ha
    rw [hs] at ha
    exact hc a (h.registered a command ha)
  · rw [hs]; exact h.named
  · rw [hm, hs]; exact h.direct

/-- A control message comes from a consumer, in command mode, and has a proper target. -/
theorem Tidy.control (h : b.Tidy) {consumer : Address} (hc : b.consumers.contains consumer = true)
    (hm : b.mode = .command) {data : Bytes} {control : Control} (hk : Control.ofBytes? data = some control) :
    (b.applyControl consumer control).2.Tidy := by
  obtain ⟨ht, hs, -⟩ := Control.names_of_ofBytes? hk
  cases control with
  | subscribe name =>
    refine ⟨h.occupied.subscribe consumer name, ?_, ?_, ?_⟩
    · intro a command ha
      rcases Subscriptions.isSubscribed_subscribe.mp ha with ⟨rfl, -⟩ | ha
      · exact hc
      · exact h.registered a command ha
    · intro a command ha
      rcases Subscriptions.isSubscribed_subscribe.mp ha with ⟨-, rfl⟩ | ha
      · exact ⟨ht, hs⟩
      · exact h.named a command ha
    · intro hd
      exact absurd (hm.symm.trans hd) (by simp)
  | unsubscribe name =>
    refine ⟨h.occupied.unsubscribe consumer name, ?_, ?_, ?_⟩
    · intro a command ha
      exact h.registered a command (Subscriptions.isSubscribed_of_unsubscribe ha)
    · intro a command ha
      exact h.named a command (Subscriptions.isSubscribed_of_unsubscribe ha)
    · intro hd
      exact absurd (hm.symm.trans hd) (by simp)

theorem Tidy.reads (h : b.Tidy) {e : Endpoint} {id : UInt32} {data : Bytes} {r : Except Failure Inbound}
    (hr : Reads b e id data sent r b') : b'.Tidy := by
  have met : (b.meet e).Tidy := h.congr (by simp) (by simp) (by simp)
  cases hr with
  | registered hh hc r =>
    refine h.congr (by simp) (by simp) ?_
    intro a ha
    simp only [Roster.contains, List.contains_cons, Bool.or_eq_true] at ha ⊢
    exact .inr ha
  | controlled hh hc hp ho hm hk => exact met.control (by simpa using hc) (by simpa using hm) hk
  | enqueued hh hc ha => exact h.congr (by simp) (by simp) (by simp)
  | unreachable hh hc hp ho hn => exact h.congr (by simp) (by simp) (by simp)
  | forwarded hh hc hp ho hn r => exact h.congr (by simp) (by simp) (by simp)
  | _ => exact met

theorem Tidy.passes (h : b.Tidy) {p : Pass} (hp : Passes b sent p b') : b'.Tidy := by
  cases hp with
  | direct hm hq he r => exact h.congr rfl rfl fun a ha => ha
  | _ => exact h.congr rfl rfl fun a ha => ha

theorem Tidy.disconnect (h : b.Tidy) (hs : b.Sound) (a : Address) : (b.disconnect a).Tidy := by
  refine ⟨h.occupied.erase a, ?_, ?_, ?_⟩
  · intro a' command ha
    obtain ⟨ha, hne⟩ := Subscriptions.isSubscribed_dropAll.mp ha
    exact (hs.roster.contains_remove a a').mpr ⟨hne, h.registered a' command ha⟩
  · intro a' command ha
    exact h.named a' command (Subscriptions.isSubscribed_dropAll.mp ha).1
  · intro hd a' command
    apply Bool.eq_false_iff.mpr
    intro ha
    have hn := h.direct hd a' command
    rw [(Subscriptions.isSubscribed_dropAll.mp ha).1] at hn
    cases hn

theorem Turn.Occurs.tidy {t : Turn} (ht : t.Occurs) (hs : t.before.Sound) (h : t.before.Tidy) :
    t.after.Tidy := by
  cases ht with
  | connected b e => exact h.congr rfl rfl fun a ha => ha
  | disconnected b a => exact h.disconnect hs a
  | read hr => exact h.reads hr
  | passed hp => exact h.passes hp
  | resumed b => exact h.congr rfl rfl fun a ha => ha
  | recatalogued b commands => exact h.congr rfl rfl fun a ha => ha

end

theorem Run.tidy {mode : DispatchMode} {commands : Catalogue} {maxAttempts : UInt32} {turns : List Turn}
    {b : Broker} (h : Run (fresh mode commands maxAttempts) turns b) : b.Tidy := by
  refine Run.induct (P := fun _ b => b.Tidy) (tidy_fresh mode commands maxAttempts) ?_ h
  intro turns t hr ht ih
  exact ht.tidy (hr.sound (sound_fresh mode commands maxAttempts)) ih

/-! ## Agreement -/

/-- What the tables and the queue say of one another. -/
structure Coherent (b : Broker) : Prop where
  subscribed : ∀ a, b.subscriptions.sets.contains a = true → a ∈ b.consumers.addresses
  known : ∀ a ∈ b.consumers.addresses, b.peers.contains a = true
  indexed : ∀ a, b.consumers.contains a = true ↔ a ∈ b.consumers.addresses
  counted : b.stats.subscribedConsumers ≤ b.stats.consumers ∧ b.stats.consumers ≤ b.stats.peers
  distinct : b.consumers.addresses.Nodup
  occupied : ∀ a set, b.subscriptions.sets.get? a = some set →
    set ≠ [] ∧ ∀ command ∈ set, command ≠ "" ∧ Command.separator ∉ command.toList
  direct : b.mode = .direct → b.subscriptions.sets.isEmpty = true
  resolvable : b.mode = .command →
    ∀ m ∈ b.queue.messages, ∃ invocation, b.commands.resolve m.payload = .ok invocation

theorem coherent_of_tidy {b : Broker} (hs : b.Sound) (ht : b.Tidy) (hr : Loop.Resolvable b) : b.Coherent := by
  have hsub : ∀ a, b.subscriptions.sets.contains a = true → a ∈ b.consumers.addresses := by
    intro a ha
    obtain ⟨command, hc⟩ := ht.occupied.exists_command ha
    exact (hs.roster.contains_iff a).mp (ht.registered a command hc)
  have hknown : ∀ a ∈ b.consumers.addresses, b.peers.contains a = true := by
    intro a ha
    exact (b.peers.contains_iff a).mpr (hs.known a ((hs.roster.contains_iff a).mpr ha))
  refine ⟨hsub, hknown, hs.roster.contains_iff, ⟨?_, ?_⟩, hs.roster.nodup, ?_, ?_, hr⟩
  · have hle := (List.Nodup.subperm b.subscriptions.sets.keys_nodup fun a ha =>
      hsub a ((b.subscriptions.sets.mem_keys_iff a).mp ha)).length_le
    rwa [Dictionary.length_keys, Roster.addresses, List.length_map] at hle
  · have hle := (List.Nodup.subperm hs.roster.nodup fun a ha =>
      (b.peers.mem_keys_iff a).mpr (hknown a ha)).length_le
    rwa [Dictionary.length_keys, Roster.addresses, List.length_map] at hle
  · intro a set hset
    refine ⟨ht.occupied a set hset, fun command hc => ht.named a command ?_⟩
    simpa [Subscriptions.isSubscribed, Subscriptions.of, hset] using hc
  · intro hd
    apply Bool.of_not_eq_false
    intro he
    obtain ⟨a, ha⟩ : ∃ a, b.subscriptions.sets.contains a = true := by
      obtain ⟨x, hx⟩ := List.exists_mem_of_ne_nil _ (List.isEmpty_eq_false_iff.mp he)
      exact ⟨x.1, List.any_eq_true.mpr ⟨x, hx, by simp⟩⟩
    obtain ⟨command, hc⟩ := ht.occupied.exists_command ha
    rw [ht.direct hd a command] at hc
    cases hc

section
variable {mode : DispatchMode} {commands : Catalogue} {maxAttempts : UInt32} {turns : List Turn} {b : Broker}

/-- The queue holds the last of the accepted messages, under their numbers. -/
theorem Run.seq_queued (h : Run (fresh mode commands maxAttempts) turns b) :
    ∃ k, 1 ≤ k ∧ k + b.queue.size = (accepted turns).length + 1 ∧
      b.queue.messages.map (·.seq) = (List.range' k b.queue.size).map UInt64.ofNat := by
  have ha := congrArg (List.map Message.seq) h.accepted_eq
  have hn := congrArg List.length h.accepted_eq
  simp only [requests, List.length_append, List.length_map] at hn
  simp only [requests, List.map_append, List.map_map] at ha
  have hseq : ∀ ms : List Message, ms.map (Message.seq ∘ Message.request) = ms.map (·.seq) := fun _ => rfl
  rw [hseq, hseq, hseq, h.seq_eq.2, hn, ← List.range'_append_1, List.map_append] at ha
  refine ⟨(removed turns).length + 1, Nat.le_add_left 1 _, ?_, ?_⟩
  · unfold Queue.size
    omega
  · rw [Nat.add_comm]
    exact (List.append_inj_right ha (by simp)).symm

/-- **The tables agree**, and the queued messages have consecutive numbers. -/
theorem Run.tables_agree (h : Run (fresh mode commands maxAttempts) turns b)
    (hk : ∀ t ∈ turns, t.outcome ≠ .recatalogued) :
    b.Coherent ∧ ∃ k, 1 ≤ k ∧ k + b.queue.size = (accepted turns).length + 1 ∧
      b.queue.messages.map (·.seq) = (List.range' k b.queue.size).map UInt64.ofNat := by
  have hs := h.sound (sound_fresh mode commands maxAttempts)
  exact ⟨coherent_of_tidy hs h.tidy (h.resolvable hk), h.seq_queued⟩

end

/-- One of two consumers of an address leaves, and its subscription with it; another stays subscribed. -/
theorem tables_agree_shared_address : ∃ turns b, Run (fresh .command (.ofNames ["ping"])) turns b ∧
    (∀ t ∈ turns, t.outcome ≠ .recatalogued) ∧ b.Coherent ∧ b.stats = ⟨2, 1, 0, 1, 2⟩ ∧
    b.queue.messages.map (·.seq) = [1, 2] := by
  let c : Carrier Unit := ⟨fun w _ _ => (.ok 7, w)⟩
  let worker : Endpoint := ⟨"worker", 0, .far⟩
  let double : Endpoint := ⟨"worker", 1, .far⟩
  let stayer : Endpoint := ⟨"stayer", 2, .far⟩
  have h0 : Run (fresh .command (.ofNames ["ping"])) [] (fresh .command (.ofNames ["ping"])) := .start
  have h1 := (h0.next c () (.data worker 1 hello)).next c () (.data stayer 1 hello)
  have h2 := (h1.next c () (.data double 2 (Control.subscribe "ping").toBytes)).next c ()
    (.data stayer 2 (Control.subscribe "ping").toBytes)
  have h3 := (h2.next c () (.event ⟨"asker", 3, .far⟩ (.received 3 (toBytes "ping/a")))).next c ()
    (.data ⟨"asker", 3, .far⟩ 4 (toBytes "ping"))
  obtain ⟨turns, b, h, hk, hs⟩ : ∃ turns b, Run (fresh .command (.ofNames ["ping"])) turns b ∧
      (∀ t ∈ turns, t.outcome ≠ .recatalogued) ∧ b.stats = ⟨2, 1, 0, 1, 2⟩ ∧
      b.queue.messages.map (·.seq) = [1, 2] :=
    ⟨_, _, h3.next c () (.event double .disconnected), by simp [turn, eventOutcome], by decide +kernel,
      by decide +kernel⟩
  exact ⟨turns, b, h, hk, (h.tables_agree hk).1, hs⟩

end Switchboard.Broker
