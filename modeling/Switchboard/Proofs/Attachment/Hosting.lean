import Switchboard.Proofs.Attachment.Asking
import Switchboard.Proofs.Attachment.Streams
import Switchboard.Proofs.Broker.Sources

/-!
# A broker and one of its links

What a broker keeps of link `i` while its side is the only endpoint of address `a` (`Broker.Hosts`): no
request and no record is from that address, and every copy that it was sent has a small id. What others do
changes neither its registration nor its subscriptions, and a turn sends on the link only an acknowledgement
or copies.
-/

namespace Switchboard

/-- The endpoint is the broker's side of link `i`, under address `a`, or shares neither with it. -/
def Endpoint.Parted (a : Address) (i : Nat) (e : Endpoint) : Prop :=
  e = ⟨a, i, .far⟩ ∨ (e.address ≠ a ∧ e.connection ≠ i)

section
variable {a : Address} {i : Nat} {e : Endpoint}

theorem Endpoint.Parted.of_address (h : e.Parted a i) (ha : e.address = a) : e = ⟨a, i, .far⟩ := by
  rcases h with h | ⟨hne, -⟩
  · exact h
  · exact absurd ha hne

theorem Endpoint.Parted.of_connection (h : e.Parted a i) (hi : e.connection = i) : e = ⟨a, i, .far⟩ := by
  rcases h with h | ⟨-, hne⟩
  · exact h
  · exact absurd hi hne

end

namespace Broker

/-! ## Records -/

section
variable {b b' : Broker} {sent : List Sending} {d : Delivery} {o : Origin}

theorem Reads.answers {e : Endpoint} {id : UInt32} {data : Bytes} {r : Except Failure Inbound}
    (hr : Reads b e id data sent r b') (h : b'.answers.get? d = some o) : b.answers.get? d = some o := by
  have erased : ∀ {d' : Delivery}, (⟨b.answers.records.erase d'⟩ : Correlations).get? d = some o →
      b.answers.get? d = some o := by
    intro d' h
    simp only [Correlations.get?, Dictionary.get?_erase] at h
    split at h
    · cases h
    · exact h
  cases hr with
  | unreachable => exact erased h
  | forwarded => exact erased h
  | @controlled p control => cases control <;> simpa [applyControl, wake] using h
  | _ => simpa using h

theorem Passes.records {p : Pass} (hp : Passes b sent p b') (h : b'.answers.get? d = some o) :
    b.answers.get? d = some o ∨ ∃ m ∈ b.queue.messages, o = m.origin ∧ ∃ s ∈ sent, s.delivery? = some d := by
  cases hq : b.queue.messages with
  | nil =>
    cases hp with
    | idle => exact .inl h
    | direct _ hq' | dispatched _ hq' | dropped _ hq' | stalled _ hq' => rw [hq] at hq'; cases hq'
  | cons m ms =>
    rw [hp.answers hq, get?_recordAll] at h
    rcases h with ⟨hs, ho⟩ | ⟨-, h⟩
    · exact .inr ⟨m, List.mem_cons_self .., ho, hs⟩
    · exact .inl h

end

/-! ## What the broker keeps -/

structure Hosts (b : Broker) (a : Address) (i : Nat) : Prop where
  sound : b.Sound
  tidy : b.Tidy
  distinct : b.subscriptions.Distinct
  peers : ∀ a' e, b.peers.get? a' = some e → e.address = a' ∧ e.Parted a i
  entries : ∀ e ∈ b.consumers.entries, e.Parted a i
  producers : ∀ m ∈ b.queue.messages, m.producer ≠ a
  records : ∀ d o, b.answers.get? d = some o → o.producer ≠ a ∧ (d.consumer = a → d.id.toNat < 2 ^ 30)

theorem hosts_fresh (mode : DispatchMode) (commands : Catalogue) (maxAttempts : UInt32) (a : Address) (i : Nat) :
    (fresh mode commands maxAttempts).Hosts a i := by
  refine ⟨sound_fresh mode commands maxAttempts, tidy_fresh mode commands maxAttempts,
    Subscriptions.distinct_empty, ?_, ?_, ?_, ?_⟩
  · intro a' e h; cases h
  · intro e h; cases h
  · intro m h; cases h
  · intro d o h; cases h

section
variable {a : Address} {i : Nat} {t : Turn}

theorem Turn.Occurs.producer (ht : t.Occurs) {m : Message} (hm : m ∈ t.after.queue.messages) :
    (∃ m' ∈ t.before.queue.messages, m'.producer = m.producer) ∨ t.enqueued? = some m := by
  rcases ht.queue with ⟨m', he, -, -, hq⟩ | ⟨-, -, ⟨m', -, hq⟩ | ⟨-, hq⟩⟩
  · rw [hq] at hm
    rcases List.mem_append.mp hm with hm | hm
    · exact .inl ⟨m, hm, rfl⟩
    · rw [List.mem_singleton.mp hm]
      exact .inr he
  · exact .inl ⟨m, by rw [hq]; exact List.mem_cons_of_mem _ hm, rfl⟩
  · have hr : m.request ∈ t.after.requests := List.mem_map_of_mem hm
    rw [hq] at hr
    obtain ⟨m', hm', hreq⟩ := List.mem_map.mp hr
    have hp : m'.request.producer = m.request.producer := by rw [hreq]
    exact .inl ⟨m', hm', hp⟩

theorem Turn.Occurs.records (ht : t.Occurs) {d : Delivery} {o : Origin}
    (h : t.after.answers.get? d = some o) : t.before.answers.get? d = some o ∨
      ∃ m ∈ t.before.queue.messages, o = m.origin ∧
        ∃ s ∈ t.sent, s.delivery? = some d ∧ s.endpoint ∈ t.before.consumers.entries := by
  cases ht with
  | read hr => exact .inl (hr.answers h)
  | passed hp =>
    rcases hp.records h with h | ⟨m, hm, ho, s, hs, hd⟩
    · exact .inl h
    · exact .inr ⟨m, hm, ho, s, hs, hd, hp.endpoints_sublist.subset (List.mem_map_of_mem hs)⟩
  | connected | disconnected | resumed | recatalogued => exact .inl h

/-- The broker keeps hosting the link as long as no request comes from its address and the ids of what it
sends on it are small. -/
theorem Turn.Occurs.hosts (ht : t.Occurs) (h : t.before.Hosts a i)
    (hp : ∀ e, t.endpoint? = some e → e.Parted a i) (hq : ∀ m, t.enqueued? = some m → m.producer ≠ a)
    (hid : ∀ d ∈ datagrams t.sent, d.connection = i → d.id.toNat < 2 ^ 30) : t.after.Hosts a i := by
  refine ⟨ht.sound h.sound, ht.tidy h.sound h.tidy, ht.distinct h.distinct, ?_, ?_, ?_, ?_⟩
  · intro a' e he
    rcases ht.peers he with he | ⟨he, ha⟩
    · exact h.peers a' e he
    · exact ⟨ha.symm, hp e he⟩
  · intro e he
    rcases ht.entries he with he | ⟨id, r, ho⟩
    · exact h.entries e he
    · refine hp e ?_
      rw [Turn.endpoint?, ho]
  · intro m hm
    rcases ht.producer hm with ⟨m', hm', hpr⟩ | he
    · rw [← hpr]
      exact h.producers m' hm'
    · exact hq m he
  · intro d o ho
    rcases ht.records ho with ho | ⟨m, hm, rfl, s, hs, hd, he⟩
    · exact h.records d o ho
    · refine ⟨h.producers m hm, fun ha => ?_⟩
      obtain ⟨hr, hc⟩ := Sending.delivery?_eq_some.mp hd
      have hfar := (h.entries _ he).of_address (hc.trans ha)
      refine hid ⟨s.endpoint.connection, s.endpoint.side, d.id, s.data⟩ ?_ ?_
      · exact mem_datagrams.mpr ⟨s, hs, d.id, hr, rfl⟩
      · rw [hfar]

/-- On the link, a turn acknowledges the consumer's own hello or sends it copies. -/
theorem Turn.Occurs.sent_on (ht : t.Occurs) (h : t.before.Hosts a i)
    (hp : ∀ e, t.endpoint? = some e → e.Parted a i) {s : Sending} (hs : s ∈ t.sent)
    (hok : s.result.isOk = true) (hi : s.endpoint.connection = i) : s.endpoint = ⟨a, i, .far⟩ ∧
      ((∃ id r, t.outcome = .read ⟨a, i, .far⟩ id hello r) ∨
        (t.before.consumers.contains a = true ∧ ∃ p, t.outcome = .passed p)) := by
  cases ht.source h.sound hs with
  | @acknowledged id r ho =>
    have he : t.endpoint? = some s.endpoint := by rw [Turn.endpoint?, ho]
    have hfar := (hp _ he).of_connection hi
    exact ⟨hfar, .inl ⟨id, r, hfar ▸ ho⟩⟩
  | @copied p m ho hf hr hd =>
    have hfar := (h.entries _ hr).of_connection hi
    refine ⟨hfar, .inr ⟨(h.sound.contains_iff a).mpr ⟨s.endpoint, hr, ?_⟩, p, ho⟩⟩
    rw [hfar]
  | @answered e id n x r o ho hh hc hpeer hd hsent hm =>
    -- a forwarded answer goes to a producer, and the consumer is none
    obtain ⟨ha, hparted⟩ := h.peers _ _ hpeer
    have hfar := hparted.of_connection hi
    have hrec := h.records _ _ (ht.forwarded (hm hok)).2
    rw [hfar] at ha
    exact absurd ha.symm hrec.1

/-! ## What the consumer's own events do -/

section
variable {ω : Type} (c : Carrier ω) (w : ω) (b : Broker) (e : Endpoint) (id : UInt32) (data : Bytes)

theorem turn_reads : ∃ r, (b.turn c w (.event e (.received id data))).outcome = .read e id data r ∧
    Reads b e id data (b.turn c w (.event e (.received id data))).sent r
      (b.turn c w (.event e (.received id data))).after := by
  obtain ⟨sent, r, b', w', -, hd, hr, h⟩ := handleData_reads c b e id data w
  simp only [turn, handleEvent, eventOutcome, hd, hr]
  exact ⟨r, rfl, h⟩

end

section
variable {b b' : Broker} {sent : List Sending} {e : Endpoint} {id : UInt32} {data : Bytes}
  {r : Except Failure Inbound}

theorem Reads.enqueued?_eq_none (hr : Reads b e id data sent r b')
    (hc : data = hello ∨ b.consumers.contains e.address = true) (ho : t.outcome = .read e id data r) :
    t.enqueued? = none := by
  have hn : ∀ seq, r ≠ .ok (.enqueued seq) := by
    intro seq hs
    cases hr with
    | enqueued hh hreg =>
      rcases hc with hc | hc
      · exact hh hc
      · rw [hreg] at hc
        cases hc
    | malformed => split at hs <;> cases hs
    | forwarded _ _ _ _ _ r => cases r <;> cases hs
    | @controlled p control => cases control <;> cases hs
    | _ => cases hs
  unfold Turn.enqueued?
  rw [ho]
  split
  · next h => cases h; exact absurd rfl (hn _)
  · rfl

theorem Reads.hello (hr : Reads b e id Switchboard.hello sent r b')
    (hc : b.consumers.contains e.address = false) : (∃ result, sent = [⟨e, helloAck, result⟩]) ∧
      b'.consumers.contains e.address = true ∧ b'.subscriptions = b.subscriptions := by
  cases hr with
  | duplicate hh hc' =>
    rw [hc] at hc'
    cases hc'
  | registered hh hc' result => exact ⟨⟨result, rfl⟩, by simp [Roster.contains], by simp⟩
  | rejected hh | enqueued hh | malformed hh | unreachable hh | forwarded hh | controlled hh | unmatched hh =>
    exact absurd rfl hh

end

/-! ## What others do -/

/-- Nothing in the turn is about the address. -/
def Turn.Avoids (t : Turn) (a : Address) : Prop :=
  (∀ e, t.endpoint? = some e → e.address ≠ a) ∧ t.outcome ≠ .disconnected a

theorem Turn.Occurs.contains_of_avoids (ht : t.Occurs) (h : t.before.Sound) (ha : t.Avoids a) :
    t.after.consumers.contains a = t.before.consumers.contains a := by
  have hn : ¬ t.Registers a := by
    rintro ⟨e, id, data, ho, he⟩
    exact ha.1 e (by rw [Turn.endpoint?, ho]) he
  apply Bool.eq_iff_iff.mpr
  rw [ht.contains_iff h a]
  simp [hn, ha.2]

theorem Turn.Occurs.isSubscribed_of_avoids (ht : t.Occurs) (h : t.before.subscriptions.Distinct)
    (ha : t.Avoids a) (command : String) :
    t.after.subscriptions.isSubscribed a command = t.before.subscriptions.isSubscribed a command := by
  have hs : ¬ t.Subscribes a command := by
    rintro ⟨e, id, data, ho, he, -⟩
    exact ha.1 e (by rw [Turn.endpoint?, ho]) he
  have hc : ¬ t.Cancels a command := by
    rintro (⟨e, id, data, ho, he⟩ | ho)
    · exact ha.1 e (by rw [Turn.endpoint?, ho]) he
    · exact ha.2 ho
  apply Bool.eq_iff_iff.mpr
  rw [ht.isSubscribed_iff h]
  simp [hs, hc]

theorem Turn.Avoids.producer (h : t.Avoids a) {m : Message} (hm : t.enqueued? = some m) : m.producer ≠ a := by
  unfold Turn.enqueued? at hm
  split at hm
  · next e id data seq ho =>
    obtain rfl := Option.some.inj hm
    exact h.1 e (by rw [Turn.endpoint?, ho])
  · cases hm

end

end Broker

end Switchboard
