import Switchboard.Proofs.Broker.Consistency

/-!
# What control messages leave behind

Whether a consumer is subscribed to a command can be read off the replies it was given: the last
`subscribed` counts unless an `unsubscribed` or a disconnect came behind it. Nothing else that happens has
a say, and whoever registers has no subscription (`Run.subscribed_iff_replies`).
-/

namespace Switchboard.Broker

/-- A payload from the address `a` was answered with `i`. -/
def Turn.Replies (t : Turn) (a : Address) (i : Inbound) : Prop :=
  ∃ e id data, t.outcome = .read e id data (.ok i) ∧ e.address = a

-- turns that have no say in the subscriptions of `a`
inductive Turn.Bypasses (t : Turn) (a : Address) : Prop
  | elsewhere {e : Endpoint} {id : UInt32} {data : Bytes} {r : Except Failure Inbound}
      (h : t.outcome = .read e id data r) (he : e.address ≠ a)
  | left {a' : Address} (h : t.outcome = .disconnected a') (ha : a' ≠ a)
  | answer {e : Endpoint} {id : UInt32} {data : Bytes} {r : Except Failure Inbound} {p : Packet} {o : Origin}
      (h : t.outcome = .read e id data r) (hp : Packet.decode data = .ok p)
      (ho : t.before.answers.get? ⟨e.address, p.id⟩ = some o)
  | hello {e : Endpoint} {id : UInt32} {r : Except Failure Inbound} (h : t.outcome = .read e id hello r)
  | refused {e : Endpoint} {id : UInt32} {data : Bytes} {f : Failure}
      (h : t.outcome = .read e id data (.error f))
  | pass {p : Pass} (h : t.outcome = .passed p)

section
variable {b b' : Broker} {sent : List Sending} {t : Turn} {a : Address} {n : String}

theorem Reads.of_control {e : Endpoint} {id : UInt32} {data : Bytes} {i : Inbound}
    (hr : Reads b e id data sent (.ok i) b') (hi : i = .subscribed n ∨ i = .unsubscribed n) :
    data ≠ Switchboard.hello ∧ ∀ p, Packet.decode data = .ok p → b.answers.get? ⟨e.address, p.id⟩ = none := by
  generalize hres : (Except.ok i : Except Failure Inbound) = res at hr
  cases hr with
  | @controlled p control hh hc hp ho hm hk =>
    refine ⟨hh, ?_⟩
    intro p' hp'
    obtain rfl := Except.ok.inj (hp.symm.trans hp')
    exact ho
  | malformed hh hc hp =>
    split at hres
    · obtain rfl := Except.ok.inj hres
      rcases hi with hi | hi <;> cases hi
    · cases hres
  | forwarded hh hc hp ho hn r =>
    cases r with
    | error f => cases hres
    | ok k =>
      obtain rfl := Except.ok.inj hres
      rcases hi with hi | hi <;> cases hi
  | registered | enqueued =>
    obtain rfl := Except.ok.inj hres
    rcases hi with hi | hi <;> cases hi
  | duplicate | unreachable | unmatched | rejected => cases hres

theorem Turn.Occurs.not_replies_of_bypasses (ht : t.Occurs) (hb : t.Bypasses a) {i : Inbound}
    (hi : i = .subscribed n ∨ i = .unsubscribed n) : ¬ t.Replies a i := by
  rintro ⟨e, id, data, ho, rfl⟩
  have hc : data ≠ hello ∧ ∀ p, Packet.decode data = .ok p → t.before.answers.get? ⟨e.address, p.id⟩ = none := by
    cases ht with
    | read hr =>
      cases ho
      exact hr.of_control hi
    | connected | disconnected | passed | resumed | recatalogued => cases ho
  cases hb with
  | elsewhere h he => rw [ho] at h; cases h; exact he rfl
  | left h ha => rw [ho] at h; cases h
  | answer h hp hg =>
    rw [ho] at h
    cases h
    rw [hc.2 _ hp] at hg
    cases hg
  | hello h => rw [ho] at h; cases h; exact hc.1 rfl
  | refused h => rw [ho] at h; cases h
  | pass h => rw [ho] at h; cases h

theorem Turn.Occurs.not_cancels_of_bypasses (ht : t.Occurs) (hb : t.Bypasses a) : ¬ t.Cancels a n := by
  rintro (hr | hd)
  · exact ht.not_replies_of_bypasses hb (.inr rfl) hr
  · cases hb with
    | left h ha => rw [hd] at h; cases h; exact ha rfl
    | elsewhere h he => rw [hd] at h; cases h
    | answer h hp hg => rw [hd] at h; cases h
    | hello h => rw [hd] at h; cases h
    | refused h => rw [hd] at h; cases h
    | pass h => rw [hd] at h; cases h

theorem Turn.Occurs.subscribes_iff (ht : t.Occurs) : t.Subscribes a n ↔ t.Replies a (.subscribed n) := by
  constructor
  · rintro ⟨e, id, data, ho, he, -⟩
    exact ⟨e, id, data, ho, he⟩
  · rintro ⟨e, id, data, ho, he⟩
    refine ⟨e, id, data, ho, he, ?_⟩
    -- the name in the reply is the one that the payload spells
    cases ht with
    | read hr =>
      cases ho
      rcases hr.subscriptions with ⟨name, hn, hk, -⟩ | ⟨name, hn, -⟩ | ⟨hn, -⟩
      · cases hn
        exact (Control.names_of_ofBytes? hk).2.2
      · cases hn
      · exact absurd rfl (hn n).1
    | connected | disconnected | passed | resumed | recatalogued => cases ho

theorem Turn.Occurs.isSubscribed_of_bypasses (ht : t.Occurs) (h : t.before.subscriptions.Distinct)
    (hb : t.Bypasses a) : t.after.subscriptions.isSubscribed a n = t.before.subscriptions.isSubscribed a n := by
  rw [Bool.eq_iff_iff, ht.isSubscribed_iff h, ht.subscribes_iff]
  have hs := ht.not_replies_of_bypasses hb (n := n) (.inl rfl)
  have hc := ht.not_cancels_of_bypasses hb (n := n)
  simp only [hs, hc, false_or, not_false_eq_true, and_true]

theorem Turn.Occurs.not_isSubscribed_of_registers (ht : t.Occurs) (h : t.before.Tidy) (hr : t.Registers a) :
    t.after.subscriptions.isSubscribed a n = false := by
  have hn : t.before.consumers.contains a = false := ht.not_contains_of_registers hr
  have hs : t.after.subscriptions = t.before.subscriptions := by
    obtain ⟨e, id, data, ho, -⟩ := hr
    cases ht with
    | read hr =>
      cases ho
      rcases hr.subscriptions with ⟨_, hi, -⟩ | ⟨_, hi, -⟩ | ⟨-, hs⟩
      · cases hi
      · cases hi
      · exact hs
    | connected | disconnected | passed | resumed | recatalogued => cases ho
  -- whoever is subscribed is registered, and `a` was not
  rw [hs]
  apply Bool.eq_false_iff.mpr
  intro hs
  rw [h.registered a n hs] at hn
  cases hn

end

/-- **Subscriptions are what the replies say.** `a` is subscribed to a command exactly if a payload of its
was answered `subscribed` and since then none was answered `unsubscribed` and `a` has not disconnected. -/
theorem Run.subscribed_iff_replies {mode : DispatchMode} {commands : Catalogue} {maxAttempts : UInt32}
    {turns : List Turn} {b : Broker} (h : Run (fresh mode commands maxAttempts) turns b) (a : Address)
    (command : String) :
    (b.subscriptions.isSubscribed a command = true ↔ Since (·.Replies a (.subscribed command))
      (fun t => t.Replies a (.unsubscribed command) ∨ t.outcome = .disconnected a) turns) ∧
    (∀ t ∈ turns, t.Bypasses a →
      t.after.subscriptions.isSubscribed a command = t.before.subscriptions.isSubscribed a command) ∧
    ∀ t ∈ turns, t.Registers a → t.after.subscriptions.isSubscribed a command = false := by
  refine ⟨?_, ?_, ?_⟩
  · rw [h.isSubscribed_iff]
    exact since_congr (fun t hm => (h.of_mem hm).1.subscribes_iff) fun t hm => Iff.rfl
  · intro t hm hb
    obtain ⟨ht, past, future, -, hp⟩ := h.of_mem hm
    exact ht.isSubscribed_of_bypasses hp.distinct hb
  · intro t hm hr
    obtain ⟨ht, past, future, -, hp⟩ := h.of_mem hm
    exact ht.not_isSubscribed_of_registers hp.tidy hr

/-- A consumer subscribes twice and leaves; the next one of its address has to subscribe anew. -/
theorem subscribed_iff_replies_anew : ∃ turns b, Run (fresh .command (.ofNames ["ping", "pong"])) turns b ∧
    Since (·.Replies "worker" (.subscribed "ping"))
      (fun t => t.Replies "worker" (.unsubscribed "ping") ∨ t.outcome = .disconnected "worker") turns ∧
    ¬ Since (·.Replies "worker" (.subscribed "pong"))
      (fun t => t.Replies "worker" (.unsubscribed "pong") ∨ t.outcome = .disconnected "worker") turns := by
  let c : Carrier Unit := ⟨fun w _ _ => (.ok 7, w)⟩
  let earlier : Endpoint := ⟨"worker", 0, .far⟩
  let later : Endpoint := ⟨"worker", 1, .far⟩
  have h0 : Run (fresh .command (.ofNames ["ping", "pong"])) [] (fresh .command (.ofNames ["ping", "pong"])) :=
    .start
  have h1 := ((h0.next c () (.data earlier 1 hello)).next c ()
    (.data earlier 2 (Control.subscribe "ping").toBytes)).next c ()
    (.data earlier 3 (Control.subscribe "pong").toBytes)
  have h := ((h1.next c () (.event earlier .disconnected)).next c () (.data later 1 hello)).next c ()
    (.data later 2 (Control.subscribe "ping").toBytes)
  refine ⟨_, _, h, (h.subscribed_iff_replies "worker" "ping").1.mp (by decide +kernel), fun hs => ?_⟩
  have hn := (h.subscribed_iff_replies "worker" "pong").1.mpr hs
  revert hn
  decide +kernel

end Switchboard.Broker
