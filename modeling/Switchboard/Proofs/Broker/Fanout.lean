import Switchboard.Proofs.Broker.Registrations
import Switchboard.Proofs.Broker.Wakeups
import Switchboard.Proofs.Command

/-!
# Who is offered a copy

A subscription is in effect from the control message that asks for it until one that cancels it or a
disconnect. In command mode a pass offers the front of the queue to the registered consumers that have a
subscription in effect to a name of its payload, once each and in order of registration, and to nobody
else (`Run.fans_out_exactly`).
-/

namespace Switchboard.Broker

def Turn.Subscribes (t : Turn) (a : Address) (command : String) : Prop :=
  ∃ e id data, t.outcome = .read e id data (.ok (.subscribed command)) ∧ e.address = a ∧
    Names data (Control.subscribe command).toText

def Turn.Cancels (t : Turn) (a : Address) (command : String) : Prop :=
  (∃ e id data, t.outcome = .read e id data (.ok (.unsubscribed command)) ∧ e.address = a) ∨
    t.outcome = .disconnected a

/-- A subscription that is in effect after the given turns. -/
def Wants (turns : List Turn) (a : Address) (command : String) : Prop :=
  Since (·.Subscribes a command) (·.Cancels a command) turns

/-! ## Subscriptions in effect -/

section
variable {b b' : Broker} {sent : List Sending}

theorem Reads.subscriptions {e : Endpoint} {id : UInt32} {data : Bytes} {r : Except Failure Inbound}
    (hr : Reads b e id data sent r b') :
    (∃ command, r = .ok (.subscribed command) ∧ Control.ofBytes? data = some (.subscribe command) ∧
      b'.subscriptions = (b.subscriptions.subscribe e.address command).2) ∨
    (∃ command, r = .ok (.unsubscribed command) ∧
      b'.subscriptions = (b.subscriptions.unsubscribe e.address command).2) ∨
    ((∀ command, r ≠ .ok (.subscribed command) ∧ r ≠ .ok (.unsubscribed command)) ∧
      b'.subscriptions = b.subscriptions) := by
  cases hr with
  | @controlled p control hh hc hp ho hm hk =>
    cases control with
    | subscribe command => exact .inl ⟨command, rfl, hk, by simp [applyControl, wake]⟩
    | unsubscribe command => exact .inr (.inl ⟨command, rfl, by simp [applyControl]⟩)
  | malformed hh hc hp => exact .inr (.inr ⟨fun command => by split <;> simp, by simp⟩)
  | forwarded hh hc hp ho hn r => exact .inr (.inr ⟨fun command => by cases r <;> simp [Except.map], by simp⟩)
  | _ => exact .inr (.inr ⟨fun command => by simp, by simp⟩)

theorem Passes.subscriptions {p : Pass} (hp : Passes b sent p b') : b'.subscriptions = b.subscriptions := by
  cases hp <;> rfl

end

section
variable {t : Turn} {a : Address} {n : String}

theorem Turn.not_subscribes (h : ∀ e id data, t.outcome ≠ .read e id data (.ok (.subscribed n))) :
    ¬ t.Subscribes a n := by
  rintro ⟨e, id, data, ho, -⟩
  exact h e id data ho

theorem Turn.not_cancels (h : ∀ e id data, t.outcome ≠ .read e id data (.ok (.unsubscribed n)))
    (hd : t.outcome ≠ .disconnected a) : ¬ t.Cancels a n := by
  rintro (⟨e, id, data, ho, -⟩ | ho)
  · exact h e id data ho
  · exact hd ho

theorem Turn.Occurs.distinct (ht : t.Occurs) (h : t.before.subscriptions.Distinct) :
    t.after.subscriptions.Distinct := by
  cases ht with
  | connected b e => exact h
  | disconnected b a => exact h.dropAll a
  | read hr =>
    rcases hr.subscriptions with ⟨command, -, -, hs⟩ | ⟨command, -, hs⟩ | ⟨-, hs⟩
    · rw [hs]; exact h.subscribe _ _
    · rw [hs]; exact h.unsubscribe _ _
    · rw [hs]; exact h
  | passed hp => rw [hp.subscriptions]; exact h
  | resumed b => exact h
  | recatalogued b commands => exact h

theorem Turn.Occurs.isSubscribed_iff (ht : t.Occurs) (h : t.before.subscriptions.Distinct) :
    t.after.subscriptions.isSubscribed a n = true ↔ t.Subscribes a n ∨
      (t.before.subscriptions.isSubscribed a n = true ∧ ¬ t.Cancels a n) := by
  have quiet : ∀ {u : Turn}, u.after.subscriptions = u.before.subscriptions →
      (∀ e id data, u.outcome ≠ .read e id data (.ok (.subscribed n))) →
      (∀ e id data, u.outcome ≠ .read e id data (.ok (.unsubscribed n))) →
      u.outcome ≠ .disconnected a →
      (u.after.subscriptions.isSubscribed a n = true ↔ u.Subscribes a n ∨
        (u.before.subscriptions.isSubscribed a n = true ∧ ¬ u.Cancels a n)) := by
    intro u hs h1 h2 h3
    rw [hs]
    simp [u.not_subscribes h1, u.not_cancels h2 h3]
  cases ht with
  | connected b e => exact quiet rfl (by simp) (by simp) (by simp)
  | resumed b => exact quiet rfl (by simp) (by simp) (by simp)
  | recatalogued b commands => exact quiet rfl (by simp) (by simp) (by simp)
  | passed hp => exact quiet hp.subscriptions (by simp) (by simp) (by simp)
  | disconnected b a' =>
    have hn : ¬ Turn.Subscribes ⟨b, .disconnected a', [], b.disconnect a'⟩ a n :=
      Turn.not_subscribes (by simp)
    have hc : Turn.Cancels ⟨b, .disconnected a', [], b.disconnect a'⟩ a n ↔ a = a' := by
      simp [Turn.Cancels, eq_comm]
    rw [hc]
    simp only [hn, false_or]
    exact Subscriptions.isSubscribed_dropAll
  | @read b b' e id data sent r hr =>
    rcases hr.subscriptions with ⟨name, rfl, hk, hs⟩ | ⟨name, rfl, hs⟩ | ⟨hn, hs⟩
    · have hsub : Turn.Subscribes ⟨b, .read e id data (.ok (.subscribed name)), sent, b'⟩ a n ↔
          a = e.address ∧ n = name := by
        constructor
        · rintro ⟨e', id', data', ho, rfl, -⟩
          cases ho
          exact ⟨rfl, rfl⟩
        · rintro ⟨rfl, rfl⟩
          exact ⟨e, id, data, rfl, rfl, (Control.names_of_ofBytes? hk).2.2⟩
      have hcan := Turn.not_cancels (t := ⟨b, .read e id data (.ok (.subscribed name)), sent, b'⟩) (a := a)
        (n := n) (by simp) (by simp)
      rw [hsub, hs, Subscriptions.isSubscribed_subscribe]
      simp [hcan]
    · have hsub := Turn.not_subscribes (t := ⟨b, .read e id data (.ok (.unsubscribed name)), sent, b'⟩) (a := a)
        (n := n) (by simp)
      have hcan : Turn.Cancels ⟨b, .read e id data (.ok (.unsubscribed name)), sent, b'⟩ a n ↔
          a = e.address ∧ n = name := by
        constructor
        · rintro (⟨e', id', data', ho, rfl⟩ | ho)
          · cases ho
            exact ⟨rfl, rfl⟩
          · cases ho
        · rintro ⟨rfl, rfl⟩
          exact .inl ⟨e, id, data, rfl, rfl⟩
      rw [hcan, hs, h.isSubscribed_unsubscribe]
      simp [hsub]
    · refine quiet hs ?_ ?_ (by simp)
      · intro e' id' data' ho
        cases ho
        exact (hn n).1 rfl
      · intro e' id' data' ho
        cases ho
        exact (hn n).2 rfl

end

section
variable {mode : DispatchMode} {commands : Catalogue} {maxAttempts : UInt32} {turns : List Turn} {b : Broker}

theorem Run.distinct (h : Run (fresh mode commands maxAttempts) turns b) : b.subscriptions.Distinct :=
  Run.induct (P := fun _ b => b.subscriptions.Distinct) Subscriptions.distinct_empty
    (fun _ _ _ ht ih => ht.distinct ih) h

theorem Run.isSubscribed_iff (h : Run (fresh mode commands maxAttempts) turns b) (a : Address)
    (command : String) : b.subscriptions.isSubscribed a command = true ↔ Wants turns a command := by
  refine Run.induct (P := fun turns b => b.subscriptions.isSubscribed a command = true ↔
    Wants turns a command) ?_ (fun turns t hr ht ih => ?_) h
  · exact ⟨fun h => (by cases h), fun h => absurd h (not_since_nil _ _)⟩
  · rw [ht.isSubscribed_iff hr.distinct, ih, Wants, Wants, since_snoc]

theorem Run.wants_proper (h : Run (fresh mode commands maxAttempts) turns b) {a : Address} {command : String}
    (hw : Wants turns a command) : Command.separator ∉ command.toList := by
  obtain ⟨past, t, future, rfl, ⟨e, id, data, ho, -, -⟩, -⟩ := hw
  obtain ⟨hoc, -⟩ := h.of_mem (t := t) (by simp)
  cases hoc with
  | read hr =>
    cases ho
    rcases hr.subscriptions with ⟨name, hn, hk, -⟩ | ⟨name, hn, -⟩ | ⟨hn, -⟩
    · cases hn
      exact (Control.names_of_ofBytes? hk).2.1
    · cases hn
    · exact absurd rfl (hn command).1
  | connected | disconnected | passed | resumed | recatalogued => cases ho

/-- While the catalogue stays, every queued request is a command of it. -/
theorem Run.resolvable (h : Run (fresh mode commands maxAttempts) turns b)
    (hk : ∀ t ∈ turns, t.outcome ≠ .recatalogued) : Loop.Resolvable b := by
  revert hk
  refine Run.induct (P := fun turns b => (∀ t ∈ turns, t.outcome ≠ .recatalogued) → Loop.Resolvable b)
    (fun _ _ m hm => by cases hm) (fun turns t _ ht ih hk => ?_) h
  have hb := ih fun t ht => hk t (List.mem_append_left _ ht)
  have ho := hk t (by simp)
  cases ht with
  | connected b e => exact hb
  | disconnected b a => exact hb
  | read hr => exact hb.reads hr
  | passed hp => exact hb.passes hp
  | resumed b => exact hb
  | recatalogued b commands => exact absurd rfl ho

end

/-! ## Records of a pass -/

theorem get?_recordAll (o o' : Origin) (d : Delivery) : ∀ (sent : List Sending) (t : Correlations),
    (t.recordAll o sent).get? d = some o' ↔ ((∃ s ∈ sent, s.delivery? = some d) ∧ o' = o) ∨
      ((∀ s ∈ sent, s.delivery? ≠ some d) ∧ t.get? d = some o')
  | [], t => by simp [Correlations.recordAll]
  | s :: sent, t => by
    have hn : (∀ s ∈ sent, s.delivery? ≠ some d) ↔ ¬ ∃ s ∈ sent, s.delivery? = some d := by simp
    rw [show t.recordAll o (s :: sent) = (t.recordSent s.endpoint.address o s.result).recordAll o sent from rfl,
      get?_recordAll o o' d sent, Correlations.get?_recordSent, hn]
    simp only [List.mem_cons, exists_eq_or_imp, forall_eq_or_imp, hn]
    by_cases he : ∃ s ∈ sent, s.delivery? = some d
    · simp [he]
    · by_cases hs : s.delivery? = some d <;> simp [he, hs, eq_comm (a := o)]

/-! ## Passes -/

/-- What a pass with `m` at the front of the queue does after the given turns. -/
structure Turn.FansOut (t : Turn) (turns : List Turn) (m : Message) : Prop where
  registered : t.before.consumers.entries = roll turns
  offered : ∀ e ∈ roll turns,
    (∃ s ∈ t.sent, s.endpoint = e) ↔ ∃ command, Wants turns e.address command ∧ Names m.payload command
  ordered : (t.sent.map (·.endpoint)).Sublist (roll turns)
  once : (t.sent.map (·.endpoint.address)).Nodup
  copied : ∀ s ∈ t.sent, s.data = m.payload
  recorded : ∀ d o, t.after.answers.get? d = some o ↔
    ((∃ s ∈ t.sent, s.delivery? = some d) ∧ o = m.origin) ∨
      ((∀ s ∈ t.sent, s.delivery? ≠ some d) ∧ t.before.answers.get? d = some o)

theorem Passes.answers {b b' : Broker} {sent : List Sending} {p : Pass} {m : Message} {ms : List Message}
    (hp : Passes b sent p b') (hq : b.queue.messages = m :: ms) :
    b'.answers = b.answers.recordAll m.origin sent := by
  cases hp with
  | idle hi => rfl
  | direct hm hq' he r => rw [hq] at hq'; cases hq'; rfl
  | dispatched hm hq' hs ha => rw [hq] at hq'; cases hq'; rfl
  | dropped hm hq' hs ha hl => exact (Correlations.recordAll_of_refused _ ha).symm
  | stalled hm hq' hs ha hl => exact (Correlations.recordAll_of_refused _ ha).symm

/-- In command mode, what is offered goes to the subscribers of the command at the front. -/
theorem Passes.subscribers {b b' : Broker} {sent : List Sending} {p : Pass} {m : Message} {ms : List Message}
    {invocation : Invocation} (hp : Passes b sent p b') (hm : b.mode = .command)
    (hq : b.queue.messages = m :: ms) (hi : b.commands.resolve m.payload = .ok invocation) :
    sent.map (·.endpoint) = b.subscribers invocation.command.name := by
  have offered : ∀ {m' : Message} {ms' : List Message}, b.queue.messages = m' :: ms' → b.Offers m' sent →
      sent.map (·.endpoint) = b.subscribers invocation.command.name := by
    intro m' ms' hq' hs
    rw [hq] at hq'
    obtain ⟨rfl, -⟩ := List.cons.inj hq'
    unfold Offers at hs
    rw [hi] at hs
    exact hs.1
  cases hp with
  | idle hn =>
    rcases hn with hn | hn
    · rw [hq] at hn; cases hn
    · rw [Broker.subscribers, hn]; rfl
  | direct hd => rw [hm] at hd; cases hd
  | dispatched _ hq' hs => exact offered hq' hs
  | dropped _ hq' hs => exact offered hq' hs
  | stalled _ hq' hs => exact offered hq' hs

section
variable {ω : Type} {commands : Catalogue} {maxAttempts : UInt32} {turns : List Turn} {b : Broker}

/-- **Exact fan-out.** While the catalogue stays, a pass offers its front to the consumers with a
subscription in effect to a name of its payload. -/
theorem Run.fans_out_exactly (h : Run (fresh .command commands maxAttempts) turns b)
    (hk : ∀ t ∈ turns, t.outcome ≠ .recatalogued) {m : Message} {ms : List Message}
    (hq : b.queue.messages = m :: ms) (c : Carrier ω) (w : ω) : (b.turn c w .pass).FansOut turns m := by
  have hs := h.sound (sound_fresh .command commands maxAttempts)
  have hm : b.mode = .command := h.mode
  obtain ⟨invocation, hi⟩ := h.resolvable hk hm m (by rw [hq]; exact List.mem_cons_self ..)
  have hc := Catalogue.command_of_resolve hi
  have hb := turn_before c w b .pass
  have ht := turn_occurs c w b .pass
  generalize ht' : b.turn c w .pass = t at hb ht ⊢
  have ho : ∃ p, t.outcome = .passed p := by rw [← ht']; exact ⟨_, rfl⟩
  cases ht with
  | @passed b₁ b' sent p hp =>
    obtain rfl : b₁ = b := hb
    have he := hp.subscribers hm hq hi
    have hsub := hp.endpoints_sublist
    refine ⟨h.entries_eq, fun e hme => ?_, h.entries_eq ▸ hsub, ?_, fun s hse => ?_, fun d o => ?_⟩
    · have hw : (∃ s ∈ sent, s.endpoint = e) ↔ Wants turns e.address invocation.command.name := by
        rw [← List.mem_map, he, Broker.subscribers, List.mem_filter, h.entries_eq, h.isSubscribed_iff]
        exact and_iff_right hme
      rw [hw]
      constructor
      · intro hn
        exact ⟨_, hn, (Command.names_iff hc (h.wants_proper hn)).mpr rfl⟩
      · rintro ⟨command, hn, hd⟩
        rwa [(Command.names_iff hc (h.wants_proper hn)).mp hd]
    · have := hsub.map (·.address)
      rw [List.map_map] at this
      exact hs.roster.nodup.sublist this
    · obtain ⟨m', hf, hd⟩ := hp.data hse
      rw [hq] at hf
      obtain rfl := Option.some.inj hf
      exact hd
    · rw [hp.answers hq]
      exact get?_recordAll m.origin o d sent b₁.answers
  | _ => obtain ⟨p, ho⟩ := ho; cases ho

end

/-- Of two consumers, one wants a command whose name is the beginning of the other one's. -/
theorem fans_out_exactly_two_names : ∃ (c : Carrier Unit) (turns : List Turn) (b : Broker) (m : Message),
    Run (fresh .command (.ofNames ["pin", "ping"])) turns b ∧ (∀ t ∈ turns, t.outcome ≠ .recatalogued) ∧
    b.queue.messages = [m] ∧ m.payload = toBytes "ping/é" ∧ (b.turn c () .pass).FansOut turns m ∧
    (b.turn c () .pass).sent.map (·.endpoint.address) = ["second"] := by
  let c : Carrier Unit := ⟨fun w _ _ => (.ok 7, w)⟩
  let first : Endpoint := ⟨"first", 0, .far⟩
  let second : Endpoint := ⟨"second", 1, .far⟩
  let m : Message := ⟨"asker", 3, toBytes "ping/é", 1, 0⟩
  have h0 : Run (fresh .command (.ofNames ["pin", "ping"])) [] (fresh .command (.ofNames ["pin", "ping"])) :=
    .start
  have h1 := (h0.next c () (.data first 1 hello)).next c () (.data second 1 hello)
  have h2 := (h1.next c () (.data first 2 (Control.subscribe "pin").toBytes)).next c ()
    (.data second 2 (Control.subscribe "ping").toBytes)
  obtain ⟨turns, b, h, hk, hq, hs⟩ : ∃ turns b, Run (fresh .command (.ofNames ["pin", "ping"])) turns b ∧
      (∀ t ∈ turns, t.outcome ≠ .recatalogued) ∧ b.queue.messages = [m] ∧
      (b.turn c () .pass).sent.map (·.endpoint.address) = ["second"] :=
    ⟨_, _, h2.next c () (.data ⟨"asker", 2, .far⟩ 3 (toBytes "ping/é")), by simp [turn], by decide +kernel,
      by decide +kernel⟩
  exact ⟨c, turns, b, m, h, hk, hq, rfl, h.fans_out_exactly hk hq c (), hs⟩

end Switchboard.Broker
