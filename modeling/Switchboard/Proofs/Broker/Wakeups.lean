import Switchboard.Proofs.Broker.Steps
import Switchboard.Proofs.Network
import Switchboard.Proofs.Roster
import Switchboard.Proofs.Subscriptions

/-!
# No lost wake-up

The dispatch loop repeats passes until one makes no progress, and then waits until the broker has been
woken. In between, the readers may act in any order and the connections may change. While the loop waits
and the broker has not been woken, there is nothing that a pass could deliver (`Reaches.no_lost_wakeup`).
-/

namespace Switchboard.Broker

/-- The broker, the connections, and whether the dispatch loop waits. -/
structure Loop (ω : Type) where
  broker : Broker
  world : ω
  waiting : Bool

namespace Loop

variable {ω : Type}

inductive Step (c : Carrier ω) (moves : ω → ω → Prop) (l : Loop ω) : Loop ω → Prop
  | event (e : Endpoint) (event : Event) :
      Step c moves l { l with
        broker := (handleEvent c l.broker e event l.world).1
        world := (handleEvent c l.broker e event l.world).2 }
  | data (e : Endpoint) (id : UInt32) (data : Bytes) :
      Step c moves l { l with
        broker := (handleData c l.broker e id data l.world).2.1
        world := (handleData c l.broker e id data l.world).2.2 }
  | disconnect (a : Address) : Step c moves l { l with broker := l.broker.disconnect a }
  | pass (h : l.waiting = false) :
      Step c moves l
        ⟨(dispatch c l.broker l.world).2.1, (dispatch c l.broker l.world).2.2,
          !(dispatch c l.broker l.world).1.madeProgress⟩
  | resume (hw : l.waiting = true) (hp : l.broker.woken = true) :
      Step c moves l ⟨{ l.broker with woken := false }, l.world, false⟩
  | elsewhere {w' : ω} (h : moves l.world w') : Step c moves l { l with world := w' }

inductive Reaches (c : Carrier ω) (moves : ω → ω → Prop) (start : Loop ω) : Loop ω → Prop
  | start : Reaches c moves start start
  | next {l l' : Loop ω} (h : Reaches c moves start l) (hs : Step c moves l l') : Reaches c moves start l'

/-- Passes that nothing comes between are those of `drain`, and the loop waits after them. -/
theorem Reaches.drain {c : Carrier ω} {moves : ω → ω → Prop} {start l : Loop ω}
    (h : Reaches c moves start l) (hw : l.waiting = false) :
    Reaches c moves start
      ⟨(Broker.drain c l.broker l.world).2.1, (Broker.drain c l.broker l.world).2.2, true⟩ := by
  obtain ⟨b, w, waiting⟩ := l
  dsimp only at hw
  subst hw
  induction b, w using Broker.drain.induct c with
  | case1 b w r hp ih =>
    rw [Broker.drain, dif_pos hp]
    have hn := h.next (.pass rfl)
    dsimp only at hn
    rw [show (dispatch c b w).1.madeProgress = true from hp] at hn
    exact ih hn
  | case2 b w r hp =>
    rw [Broker.drain, dif_neg hp]
    have hn := h.next (.pass rfl)
    dsimp only at hn
    rw [Bool.eq_false_iff.mpr (show ¬ (dispatch c b w).1.madeProgress = true from hp)] at hn
    exact hn

/-! ## The invariant -/

/-- Nobody would get a copy of the front request, if there is one. -/
def Stuck (c : Carrier ω) (b : Broker) (w : ω) : Prop :=
  b.queue.messages = [] ∨ b.consumers.entries = [] ∨
    (b.mode = .command ∧ ∃ m ms invocation, b.queue.messages = m :: ms ∧
      b.commands.resolve m.payload = .ok invocation ∧
      ∀ e ∈ b.consumers.entries, b.subscriptions.isSubscribed e.address invocation.command.name = true →
        c.Refuses w e)

/-- In command mode, every queued request is a command of the catalogue. -/
def Resolvable (b : Broker) : Prop :=
  b.mode = .command → ∀ m ∈ b.queue.messages, ∃ invocation, b.commands.resolve m.payload = .ok invocation

structure Sound (c : Carrier ω) (l : Loop ω) : Prop where
  resolvable : Resolvable l.broker
  stuck : l.waiting = true → l.broker.woken = false → Stuck c l.broker l.world

section
variable {c : Carrier ω} {b b' : Broker} {w w' : ω} {sent : List Sending}

/-- What is stuck stays so while consumers and subscriptions only go and connections only fail. -/
theorem Stuck.mono (h : Stuck c b w) (hq : b'.queue = b.queue) (hm : b'.mode = b.mode)
    (hk : b'.commands = b.commands) (hc : ∀ e ∈ b'.consumers.entries, e ∈ b.consumers.entries)
    (hs : ∀ a n, b'.subscriptions.isSubscribed a n = true → b.subscriptions.isSubscribed a n = true)
    (hr : ∀ e, c.Refuses w e → c.Refuses w' e) : Stuck c b' w' := by
  rcases h with h | h | ⟨hb, m, ms, invocation, hf, hi, hall⟩
  · exact .inl (by rw [hq]; exact h)
  · refine .inr (.inl (List.eq_nil_iff_forall_not_mem.mpr fun e he => ?_))
    have := hc e he
    rw [h] at this
    cases this
  · refine .inr (.inr ⟨by rw [hm]; exact hb, m, ms, invocation, by rw [hq]; exact hf,
      by rw [hk]; exact hi, ?_⟩)
    intro e he hsub
    exact hr e (hall e (hc e he) (hs _ _ hsub))

/-- Whatever a reader does that could make the front deliverable also wakes the loop. -/
theorem Stuck.reads {e : Endpoint} {id : UInt32} {data : Bytes} {r : Except Failure Inbound}
    (hr : Reads b e id data sent r b') (hd : ∀ e, c.Refuses w e → c.Refuses w' e)
    (h : b.woken = false → Stuck c b w) (hn : b'.woken = false) : Stuck c b' w' := by
  have same : (b.meet e).woken = false → Stuck c (b.meet e) w' := by
    intro hn
    rw [meet_woken] at hn
    refine (h hn).mono (by simp) (by simp) (by simp) (fun e' he => ?_) (fun a n hs => ?_) hd
    · rwa [meet_consumers] at he
    · rwa [meet_subscriptions] at hs
  cases hr with
  | registered hh hc r => cases hn
  | enqueued hh hc ha => cases hn
  | @controlled p control hh hc hp ho hm hk =>
    cases control with
    | subscribe command => cases hn
    | unsubscribe command =>
      refine (same hn).mono rfl rfl rfl (fun e' he => he) (fun a n hs => ?_) (fun e' he => he)
      exact Subscriptions.isSubscribed_of_unsubscribe hs
  | _ => exact same hn

theorem Stuck.disconnect (h : Stuck c b w) (a : Address) : Stuck c (b.disconnect a) w :=
  h.mono rfl rfl rfl (fun _ he => Roster.mem_of_mem_remove he)
    (fun _ _ hs => (Subscriptions.isSubscribed_dropAll.mp hs).1) fun _ he => he

/-- A pass without progress leaves nothing that it could have delivered. -/
theorem Stuck.passes {moves : ω → ω → Prop} (hc : c.FailsForGood moves) (hs : c.Sends w sent w') {p : Pass}
    (hp : Passes b sent p b') (hv : Resolvable b) (hn : p.madeProgress = false) : Stuck c b' w' := by
  cases hp with
  | idle hi =>
    rcases hi with hi | hi
    · exact .inl hi
    · exact .inr (.inl hi)
  | direct hm hq he r => split at hn <;> cases hn
  | dispatched hm hq ho ha => cases hn
  | dropped hm hq ho ha hl => cases hn
  | @stalled m ms sent hm hq ho ha hl =>
    obtain ⟨invocation, hi⟩ := hv hm m (by rw [hq]; exact List.mem_cons_self ..)
    unfold Offers at ho
    rw [hi] at ho
    refine .inr (.inr ⟨hm, { m with attempts := m.attempts + 1 }, ms, invocation, rfl, hi, ?_⟩)
    intro e he hsub
    have hmem : e ∈ sent.map (·.endpoint) := by
      rw [ho.1]
      exact List.mem_filter.mpr ⟨he, hsub⟩
    obtain ⟨s, hse, rfl⟩ := List.mem_map.mp hmem
    exact hc.of_refused hs hse (isOk_of_copies ha hse)

theorem Resolvable.reads (h : Resolvable b) {e : Endpoint} {id : UInt32} {data : Bytes}
    {r : Except Failure Inbound} (hr : Reads b e id data sent r b') : Resolvable b' := by
  have same : Resolvable (b.meet e) := by
    unfold Resolvable
    rw [meet_mode, meet_queue, meet_commands]
    exact h
  cases hr with
  | @controlled p control => cases control <;> exact same
  | enqueued hh hc ha =>
    intro hm m hmem
    rw [meet_mode] at hm
    rw [meet_commands]
    rcases List.mem_append.mp hmem with hmem | hmem
    · exact h hm m hmem
    · rw [List.mem_singleton.mp hmem]
      unfold allow at ha
      rw [hm] at ha
      cases hi : b.commands.resolve data with
      | ok invocation => exact ⟨invocation, rfl⟩
      | error f => rw [hi] at ha; cases ha
  | _ => exact same

theorem Resolvable.passes (h : Resolvable b) {p : Pass} (hp : Passes b sent p b') : Resolvable b' := by
  have older : ∀ {m : Message} {ms : List Message}, b.queue.messages = m :: ms → b.mode = .command →
      ∀ m' ∈ ms, ∃ invocation, b.commands.resolve m'.payload = .ok invocation := by
    intro m ms hq hm m' hmem
    exact h hm m' (by rw [hq]; exact List.mem_cons_of_mem _ hmem)
  cases hp with
  | idle hi => exact h
  | direct hm hq he r => exact older hq
  | dispatched hm hq ho ha => exact older hq
  | dropped hm hq ho ha hl => exact older hq
  | @stalled m ms sent hm hq ho ha hl =>
    intro hm m' hmem
    rcases List.mem_cons.mp hmem with rfl | hmem
    · exact h hm m (by rw [hq]; exact List.mem_cons_self ..)
    · exact older hq hm m' hmem

end

/-! ## Steps and runs -/

section
variable {c : Carrier ω} {moves : ω → ω → Prop} {l l' : Loop ω}

theorem Sound.data (hc : c.FailsForGood moves) (h : Sound c l) (e : Endpoint) (id : UInt32) (data : Bytes) :
    Sound c { l with
      broker := (handleData c l.broker e id data l.world).2.1
      world := (handleData c l.broker e id data l.world).2.2 } := by
  obtain ⟨sent, r, b', w', hs, he, -, hr⟩ := handleData_reads c l.broker e id data l.world
  rw [he]
  refine ⟨h.resolvable.reads hr, fun hw hn => ?_⟩
  exact Stuck.reads hr (fun _ hd => hc.sends hs hd) (h.stuck hw) hn

theorem Sound.step (hc : c.FailsForGood moves) (h : Sound c l) (hs : Step c moves l l') : Sound c l' := by
  cases hs with
  | event e event =>
    cases event with
    | connected => exact ⟨h.resolvable, h.stuck⟩
    | disconnected => exact ⟨h.resolvable, fun hw hn => (h.stuck hw hn).disconnect e.address⟩
    | received id data => exact h.data hc e id data
  | data e id data => exact h.data hc e id data
  | disconnect a => exact ⟨h.resolvable, fun hw hn => (h.stuck hw hn).disconnect a⟩
  | pass hw =>
    obtain ⟨sent, p, b', w', hs, he, -, hp⟩ := dispatch_passes c l.broker l.world
    rw [he]
    refine ⟨h.resolvable.passes hp, fun hw hn => ?_⟩
    exact Stuck.passes hc hs hp h.resolvable (by simpa using hw)
  | resume hw hp => exact ⟨h.resolvable, fun hw => by cases hw⟩
  | elsewhere hm =>
    refine ⟨h.resolvable, fun hw hn => ?_⟩
    exact (h.stuck hw hn).mono rfl rfl rfl (fun _ he => he) (fun _ _ hs => hs) fun e he => hc.moved _ _ e hm he

theorem Reaches.sound (hc : c.FailsForGood moves) {start : Loop ω} (h0 : Sound c start)
    (h : Reaches c moves start l) : Sound c l := by
  induction h with
  | start => exact h0
  | next _ hs ih => exact ih.step hc hs

/-- **No lost wake-up.** While the loop waits without having been woken, nothing is deliverable, and in
direct mode no request is queued beside a consumer. -/
theorem Reaches.no_lost_wakeup (hc : c.FailsForGood moves) {mode : DispatchMode} {commands : Catalogue}
    {maxAttempts : UInt32} {w : ω} (h : Reaches c moves ⟨fresh mode commands maxAttempts, w, false⟩ l)
    (hw : l.waiting = true) (hn : l.broker.woken = false) :
    Stuck c l.broker l.world ∧
      (l.broker.mode = .direct → l.broker.queue.messages = [] ∨ l.broker.consumers.entries = []) := by
  have h0 : Sound c ⟨fresh mode commands maxAttempts, w, false⟩ :=
    ⟨fun _ m hm => (by cases hm), fun hw => (by cases hw)⟩
  have hst := (h.sound hc h0).stuck hw hn
  refine ⟨hst, fun hd => ?_⟩
  rcases hst with hq | hc | ⟨hm, -⟩
  · exact .inl hq
  · exact .inr hc
  · rw [hd] at hm; cases hm

end

/-- A consumer whose link has closed leaves its request at the front. -/
theorem no_lost_wakeup_closed_link : ∃ w l, Reaches Network.lastingCarrier (fun n n' => n.1.Moves n'.1)
      ⟨fresh .command (.ofNames ["ping"]), w, false⟩ l ∧
    l.waiting = true ∧ l.broker.woken = false ∧ l.broker.queue.size = 1 ∧ l.broker.consumers.size = 1 ∧
    Stuck Network.lastingCarrier l.broker l.world := by
  let w : { n : Network // n.Lasting } := ⟨⟨[.memory (MemoryLink.connect "worker" "broker").close]⟩,
    fun c hc => by rw [List.mem_singleton.mp hc]; trivial⟩
  let worker : Endpoint := ⟨"worker", 0, .far⟩
  let asker : Endpoint := ⟨"asker", 1, .far⟩
  have h0 : Reaches Network.lastingCarrier (fun n n' => n.1.Moves n'.1)
    ⟨fresh .command (.ofNames ["ping"]), w, false⟩ _ := .start
  have h1 := (h0.next (.data worker 1 hello)).next (.data worker 2 (Control.subscribe "ping").toBytes)
  have h2 := (h1.next (.data asker 1 (toBytes "ping"))).next (.pass rfl)
  have h3 := (h2.next (.resume (by decide +kernel) (by decide +kernel))).next (.pass rfl)
  obtain ⟨hs, -⟩ := h3.no_lost_wakeup Network.lastingCarrier_failsForGood (by decide +kernel)
    (by decide +kernel)
  exact ⟨w, _, h3, by decide +kernel, by decide +kernel, by decide +kernel, by decide +kernel, hs⟩

end Loop

end Switchboard.Broker
