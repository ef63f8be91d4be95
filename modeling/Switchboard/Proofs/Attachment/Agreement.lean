import Switchboard.Proofs.Attachment.Phases

/-!
# Agreement of a consumer and its broker

Once the link is closed nothing is sent on it, and each side is still to take `disconnected` or has taken it.
So when both streams have been drained, the two agree on the registration, and while the link is open they
agree on the subscriptions (`Reaches.agrees`).
-/

namespace Switchboard.Attachment

/-- The link is closed. -/
structure Detached (s : Attachment) (a : Address) (i : Nat) (streams : Side → List Event) : Prop where
  link : s.network.Links i s.sent true streams
  sound : s.broker.Sound
  consumer : (s.ended = true ∧ s.consumer.registered = false) ∨
    (s.ended = false ∧ (streams .near).getLast? = some .disconnected)
  broker : (s.reading = false ∧ s.broker.consumers.contains a = false) ∨
    (s.reading = true ∧ (streams .far).getLast? = some .disconnected)

section
variable {s s' : Attachment} {a : Address} {i : Nat} {streams : Side → List Event}

/-! ## After the link has closed -/

theorem getLast?_of_cons {α : Type} {x y : α} {rest : List α} (h : (x :: rest).getLast? = some y) (hn : x ≠ y) :
    rest.getLast? = some y := by
  cases rest with
  | nil => exact absurd (Option.some.inj h) hn
  | cons z rest =>
    rw [List.getLast?_cons_cons] at h
    exact h

theorem operate_sound (hs : s.broker.Sound) (op : Broker.Operation) : (s.operate op).broker.Sound := by
  have h := (Broker.turn_occurs Network.carrier s.network s.broker op).sound (by rw [Broker.turn_before]; exact hs)
  rw [(Broker.turn_performs Network.carrier s.network s.broker op).1] at h
  exact h

theorem operate_closed (hl : s.network.Links i s.sent true streams) (op : Broker.Operation) :
    (s.operate op).network.Links i (s.operate op).sent true streams :=
  hl.sends_closed (Broker.turn_performs Network.carrier s.network s.broker op).2

theorem Attached.close (h : s.Attached a i streams) {e : Endpoint} (he : e.connection = i) :
    { s with network := s.network.close e }.Detached a i fun side => streams side ++ [Event.disconnected] := by
  have hl := h.link.close e he
  simp only [Bool.false_eq_true, if_false] at hl
  refine ⟨hl, h.hosts.sound, .inr ⟨h.ended, ?_⟩, .inr ⟨h.reading, ?_⟩⟩
  · rw [List.getLast?_concat]
  · rw [List.getLast?_concat]

theorem Detached.read (h : s.Detached a i streams) (hr : s.reading = true) {event : Event} {w' : Network}
    (ht : s.network.take ⟨a, i, .far⟩ = (some event, w')) :
    ∃ streams', ({ s with network := w' }.read ⟨a, i, .far⟩ event).Detached a i streams' := by
  obtain ⟨rest, hs, hl⟩ := h.link.take (e := ⟨a, i, .far⟩) rfl ht
  refine ⟨_, operate_closed (s := { s with network := w' }) hl _,
    operate_sound (s := { s with network := w' }) h.sound _, h.consumer, ?_⟩
  rcases h.broker with ⟨hn, -⟩ | ⟨-, hlast⟩
  · rw [hn] at hr
    cases hr
  · by_cases hd : event = .disconnected
    · subst hd
      refine .inl ⟨rfl, ?_⟩
      apply Bool.eq_false_iff.mpr
      intro hc
      exact ((h.sound.roster.contains_remove a a).mp hc).1 rfl
    · refine .inr ⟨by simp [Attachment.read, hd], ?_⟩
      have hs : streams .far = event :: rest := hs
      rw [hs] at hlast
      exact getLast?_of_cons hlast hd

theorem Detached.deliver (h : s.Detached a i streams) {name : Address}
    (hside : s.consumer.broker = ⟨name, i, .near⟩) (he : s.ended = false) (handler : Handler) {event : Event}
    {w' : Network} (ht : s.network.take s.consumer.broker = (some event, w')) :
    ∃ streams', ({ s with network := w' }.deliver handler event).Detached a i streams' := by
  rw [hside] at ht
  obtain ⟨rest, hs, hl⟩ := h.link.take (e := ⟨name, i, .near⟩) rfl ht
  obtain ⟨ss, given, k, w'', hsends, hk, hrec, -⟩ :=
    Consumer.handleEvent_sends Network.carrier handler s.consumer event w'
  refine ⟨fun side => if side = .near then rest else streams side, ?_, h.sound, ?_, h.broker⟩
  · simp only [Attachment.deliver, hk, hrec, List.nil_append]
    exact hl.sends_closed hsends
  rcases h.consumer with ⟨hn, -⟩ | ⟨-, hlast⟩
  · rw [hn] at he
    cases he
  · by_cases hd : event = .disconnected
    · subst hd
      exact .inl ⟨rfl, rfl⟩
    · refine .inr ⟨by simp [Attachment.deliver, hd], ?_⟩
      have hs : streams .near = event :: rest := hs
      rw [hs] at hlast
      exact getLast?_of_cons hlast hd

theorem Detached.ask (h : s.Detached a i streams) (m : Control) : (s.ask m).Detached a i streams :=
  ⟨h.link.sends_closed (.single Network.carrier s.network s.consumer.broker m.toBytes), h.sound, h.consumer, h.broker⟩

theorem Detached.close (h : s.Detached a i streams) {e : Endpoint} (he : e.connection = i) :
    { s with network := s.network.close e }.Detached a i streams := by
  have hl := h.link.close e he
  simp only [if_true] at hl
  exact ⟨hl, h.sound, h.consumer, h.broker⟩

theorem Detached.operate (h : s.Detached a i streams) {op : Broker.Operation} (ho : op.Apart a i) :
    (s.operate op).Detached a i streams := by
  refine ⟨operate_closed h.link op, operate_sound h.sound op, h.consumer, ?_⟩
  rw [operate_contains ho h.sound]
  exact h.broker

theorem Detached.elsewhere (h : s.Detached a i streams) {w' : Network} (hw : w'.get? i = s.network.get? i) :
    { s with network := w' }.Detached a i streams :=
  ⟨h.link.elsewhere hw, h.sound, h.consumer, h.broker⟩

/-! ## What every step keeps -/

structure Linked (s : Attachment) (a name : Address) (i : Nat) (mode : DispatchMode) (commands : List String) :
    Prop where
  side : s.consumer.broker = ⟨name, i, .near⟩
  commands : s.consumer.commands = commands
  mode : s.broker.mode = mode
  state : ∃ streams, s.Attached a i streams ∨ s.Detached a i streams

variable {name : Address} {mode : DispatchMode} {commands : List String}

theorem linked_start {catalogue : Catalogue} {maxAttempts : UInt32} {w : Network}
    (hw : w.get? i = some (.memory (.connect a name))) :
    (start (.fresh mode catalogue maxAttempts) w name i commands).Linked a name i mode commands := by
  refine ⟨rfl, rfl, rfl, fun _ => [.connected], .inl ⟨⟨_, hw, rfl, ?_, fun _ => [], ?_⟩, ?_, rfl, rfl, ?_⟩⟩
  · intro side
    cases side <;> rfl
  · exact MemoryLink.carries_connect a name i (fun _ => rfl) fun _ => rfl
  · exact Broker.hosts_fresh mode catalogue maxAttempts a i
  · exact .connecting rfl (.inl rfl) ⟨rfl, rfl, rfl⟩

theorem Step.state (h : Step a i s s') (hs : ∃ streams, s.Attached a i streams ∨ s.Detached a i streams)
    (hside : s.consumer.broker = ⟨name, i, .near⟩) (hb : (wire s'.sent i .far).length < 2 ^ 30) :
    ∃ streams, s'.Attached a i streams ∨ s'.Detached a i streams := by
  obtain ⟨streams, hs | hs⟩ := hs
  · cases h with
    | read hr ht =>
      obtain ⟨streams', h'⟩ := hs.read ht hb
      exact ⟨streams', .inl h'⟩
    | deliver handler he ht =>
      obtain ⟨streams', h'⟩ := hs.deliver hside handler ht
      exact ⟨streams', .inl h'⟩
    | ask m hr =>
      obtain ⟨streams', h'⟩ := hs.ask hside m hr
      exact ⟨streams', .inl h'⟩
    | close e he => exact ⟨_, .inr (hs.close he)⟩
    | operate ho =>
      obtain ⟨streams', h'⟩ := hs.operate ho hb
      exact ⟨streams', .inl h'⟩
    | elsewhere hw => exact ⟨streams, .inl (hs.elsewhere hw)⟩
  · cases h with
    | read hr ht =>
      obtain ⟨streams', h'⟩ := hs.read hr ht
      exact ⟨streams', .inr h'⟩
    | deliver handler he ht =>
      obtain ⟨streams', h'⟩ := hs.deliver hside he handler ht
      exact ⟨streams', .inr h'⟩
    | ask m hr => exact ⟨streams, .inr (hs.ask m)⟩
    | close e he => exact ⟨streams, .inr (hs.close he)⟩
    | operate ho => exact ⟨streams, .inr (hs.operate ho)⟩
    | elsewhere hw => exact ⟨streams, .inr (hs.elsewhere hw)⟩

theorem Linked.step (h : s.Linked a name i mode commands) (hs : Step a i s s')
    (hb : (wire s'.sent i .far).length < 2 ^ 30) : s'.Linked a name i mode commands := by
  have hstate := hs.state h.state h.side hb
  cases hs with
  | read hr ht => exact ⟨h.side, h.commands, (operate_mode _ _).trans h.mode, hstate⟩
  | deliver handler he ht =>
    obtain ⟨hbroker, hcommands⟩ := Consumer.handleEvent_configuration Network.carrier handler s.consumer _ _
    exact ⟨hbroker.trans h.side, hcommands.trans h.commands, h.mode, hstate⟩
  | operate ho => exact ⟨h.side, h.commands, (operate_mode _ _).trans h.mode, hstate⟩
  | ask | close | elsewhere => exact ⟨h.side, h.commands, h.mode, hstate⟩

theorem Reaches.linked {start : Attachment} (h : Reaches a i start s) (h0 : start.Linked a name i mode commands)
    (hb : (wire s.sent i .far).length < 2 ^ 30) : s.Linked a name i mode commands := by
  induction h with
  | refl => exact h0
  | next _ hs ih =>
    have hle := hs.length_le .far
    exact (ih (by omega)).step hs hb

/-- **Agreement at quiescence.** -/
theorem Reaches.agrees {catalogue : Catalogue} {maxAttempts : UInt32} {w : Network}
    (h : Reaches a i (start (.fresh mode catalogue maxAttempts) w name i commands) s)
    (hw : w.get? i = some (.memory (.connect a name))) (hb : (wire s.sent i .far).length < 2 ^ 30)
    {l : MemoryLink} (hl : s.network.get? i = some (.memory l)) (hn : l.near.inbox = some [])
    (hf : l.far.inbox = some []) :
    s.consumer.registered = s.broker.consumers.contains a ∧
    (l.closed = true → s.consumer.registered = false) ∧
    (l.closed = false → ∀ command, s.broker.subscriptions.isSubscribed a command = true ↔
      mode = .command ∧ command ∈ Control.wanted (commands.map .subscribe ++ s.later)) := by
  have hk := h.linked (linked_start hw) hb
  have drained : ∀ {closed streams}, s.network.Links i s.sent closed streams →
      l.closed = closed ∧ streams .near = [] ∧ streams .far = [] := by
    rintro closed streams ⟨l', hl', hh⟩
    rw [hl] at hl'
    cases hl'
    exact ⟨hh.closed_eq, Option.some.inj ((hh.inbox .near).symm.trans hn),
      Option.some.inj ((hh.inbox .far).symm.trans hf)⟩
  obtain ⟨streams, hs | hs⟩ := hk.state
  · obtain ⟨hopen, hnear, hfar⟩ := drained hs.link
    cases hs.phase with
    | connecting hn | greeted id copies hn =>
      rw [hnear] at hn
      cases hn
    | greeting id hn hf =>
      rw [hfar] at hf
      rcases hf with hf | hf <;> cases hf
    | serving done pending hn hf hr hlater hc hsub =>
      rw [hfar] at hf
      cases hf
      rw [List.append_nil, hk.commands] at hlater
      rw [hk.mode] at hsub
      refine ⟨by rw [hr, hc], fun hclosed => ?_, fun _ command => ?_⟩
      · rw [hopen] at hclosed
        cases hclosed
      · rw [hlater]
        cases mode with
        | command =>
          rw [hsub rfl command]
          simp
        | direct =>
          rw [hs.hosts.tidy.direct hk.mode a command]
          simp
  · obtain ⟨hclosed, hnear, hfar⟩ := drained hs.link
    have hr : s.consumer.registered = false := by
      rcases hs.consumer with ⟨-, hr⟩ | ⟨-, hlast⟩
      · exact hr
      · rw [hnear] at hlast
        cases hlast
    have hc : s.broker.consumers.contains a = false := by
      rcases hs.broker with ⟨-, hc⟩ | ⟨-, hlast⟩
      · exact hc
      · rw [hfar] at hlast
        cases hlast
    refine ⟨by rw [hr, hc], fun _ => hr, fun hopen => ?_⟩
    rw [hclosed] at hopen
    cases hopen

end

/-- One of the configured names has a parameter and one is empty, and the third is cancelled later. -/
theorem agrees_after_unsubscribe : ∃ (s : Attachment) (l : MemoryLink), s.network.get? 0 = some (.memory l) ∧
    l.closed = false ∧ l.near.inbox = some [] ∧ l.far.inbox = some [] ∧ s.consumer.registered = true ∧
    s.broker.consumers.contains "worker" = true ∧
    ∀ command, s.broker.subscriptions.isSubscribed "worker" command = true ↔ command = "ping" := by
  let w : Network := ⟨[.memory (.connect "worker" "broker")]⟩
  let names := ["ping/x", "", "pong"]
  let s0 := start (.fresh .command (.ofNames ["ping", "pong"])) w "broker" 0 names
  let far : Endpoint := ⟨"worker", 0, .far⟩
  let near : Endpoint := ⟨"broker", 0, .near⟩
  let handler : Handler := .rehearsed [] [] []
  have read (s : Attachment) (e : Event) (h : Reaches "worker" 0 s0 s) (hr : s.reading = true)
      (ht : (s.network.take far).1 = some e) :
      Reaches "worker" 0 s0 ({ s with network := (s.network.take far).2 }.read far e) :=
    h.next (.read hr (by rw [← ht]))
  have deliver (s : Attachment) (e : Event) (h : Reaches "worker" 0 s0 s) (he : s.ended = false)
      (hn : s.consumer.broker = near) (ht : (s.network.take near).1 = some e) :
      Reaches "worker" 0 s0 ({ s with network := (s.network.take near).2 }.deliver handler e) :=
    h.next (.deliver handler he (by rw [hn, ← ht]))
  have h1 := deliver s0 .connected .refl rfl rfl rfl
  have h2 := read _ (.received 1 hello) (read _ .connected h1 rfl rfl) rfl (by decide +kernel)
  have h3 := deliver _ (.received 1 helloAck) h2 rfl rfl (by decide +kernel)
  have h4 := h3.next (.ask (.unsubscribe "pong") (by decide +kernel))
  have h5 := read _ (.received 2 (Control.subscribe "ping/x").toBytes) h4 rfl (by decide +kernel)
  have h6 := read _ (.received 3 (Control.subscribe "").toBytes) h5 (by decide +kernel) (by decide +kernel)
  have h7 := read _ (.received 4 (Control.subscribe "pong").toBytes) h6 (by decide +kernel) (by decide +kernel)
  obtain ⟨s, l, h, hl, hn, hf, hr, hopen, hb, hlater⟩ : ∃ s l, Reaches "worker" 0 s0 s ∧
      s.network.get? 0 = some (.memory l) ∧ l.near.inbox = some [] ∧ l.far.inbox = some [] ∧
      s.consumer.registered = true ∧ l.closed = false ∧ (wire s.sent 0 .far).length < 2 ^ 30 ∧
      s.later = [.unsubscribe "pong"] :=
    ⟨_, ⟨"worker", "broker", ⟨6, some []⟩, ⟨2, some []⟩, false⟩,
      read _ (.received 5 (Control.unsubscribe "pong").toBytes) h7 (by decide +kernel) (by decide +kernel),
      by decide +kernel, rfl, rfl, by decide +kernel, rfl, by decide +kernel, by decide +kernel⟩
  obtain ⟨hreg, -, hsub⟩ := h.agrees rfl hb hl hn hf
  have hwanted : Control.wanted (names.map .subscribe ++ [.unsubscribe "pong"]) = ["ping"] := by decide +kernel
  refine ⟨s, l, hl, hopen, hn, hf, hr, by rw [← hreg, hr], fun command => ?_⟩
  rw [hsub hopen command, hlater, hwanted]
  simp

end Switchboard.Attachment
