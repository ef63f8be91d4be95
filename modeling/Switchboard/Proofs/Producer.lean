import Switchboard.Proofs.Packet
import Switchboard.Proofs.Carrier
import Switchboard.Producer

/-!
# What a producer waits for

A producer waits for the requests that it sent and nothing else, and `answered?` says which of them an
event answers: the waiter is told `Ok` for that request, and otherwise nobody is told anything.
-/

namespace Switchboard

namespace Producer

variable {κ ω : Type} {p p' : Producer κ}

/-! ## Requests that go -/

/-- The producer waits for nothing that it did not wait for before. -/
structure Keeps (p p' : Producer κ) : Prop where
  broker : p'.broker = p.broker
  futures : p'.futures = p.futures
  pending : ∀ {k r}, p'.tracker.pending.get? k = some r → p.tracker.pending.get? k = some r

theorem Keeps.refl (p : Producer κ) : p.Keeps p := ⟨rfl, rfl, id⟩

theorem Keeps.trans {p'' : Producer κ} (h : p.Keeps p') (h' : p'.Keeps p'') : p.Keeps p'' :=
  ⟨h'.broker.trans h.broker, h'.futures.trans h.futures, fun hr => h.pending (h'.pending hr)⟩

theorem keeps_forget (p : Producer κ) (id : UInt32) : p.Keeps (p.forget id).2 := by
  refine ⟨rfl, rfl, fun {k r} hr => ?_⟩
  simp only [forget, Tracker.remove, Dictionary.get?_erase] at hr
  split at hr
  · cases hr
  · exact hr

theorem keeps_tell (p : Producer κ) (waiter : Waiter κ) (id : UInt32) (outcome : Except Failure Bytes) :
    p.Keeps (p.tell waiter id outcome).2 := by
  unfold tell
  split
  · exact .refl p
  · split
    · exact .refl p
    · exact ⟨rfl, rfl, fun hr => hr⟩

theorem keeps_tellTimeouts : ∀ (expired : List (UInt32 × Waiter κ)) (p : Producer κ),
    p.Keeps (tellTimeouts expired p).2
  | [], p => .refl p
  | (id, waiter) :: rest, p =>
    (p.keeps_tell waiter id (.error (.timeout id))).trans (keeps_tellTimeouts rest _)

theorem keeps_sweep (p : Producer κ) (now : Nat) : p.Keeps (p.sweep now).2.2 := by
  have h : p.Keeps { p with tracker := (p.tracker.sweep now).2 } :=
    ⟨rfl, rfl, fun hr => Dictionary.get?_of_filter hr⟩
  exact h.trans (keeps_tellTimeouts _ _)

theorem keeps_answer (p : Producer κ) (id : UInt32) :
    p.Keeps { p with tracker := (p.tracker.answer id).2 } := by
  refine ⟨rfl, rfl, fun {k r} hr => ?_⟩
  simp only [Tracker.answer] at hr
  split at hr
  · exact hr
  · split at hr
    · rw [Dictionary.get?_erase] at hr
      split at hr
      · cases hr
      · exact hr
    · exact hr

theorem keeps_tick (t : Task κ) (now : Nat) : t.producer.Keeps (t.tick now).2.producer := by
  unfold Task.tick
  split
  · exact .refl _
  · exact t.producer.keeps_sweep now
  · exact t.producer.keeps_sweep now

/-! ## Answers -/

/-- A pending request and its answer. -/
structure Answered (κ : Type) where
  id : UInt32
  request : PendingRequest (Waiter κ)
  answer : Bytes

/-- The pending request that an event answers. -/
def answered? (p : Producer κ) : Event → Option (Answered κ)
  | .received _ data =>
    match Packet.decode data with
    | .error _ => none
    | .ok packet => (p.tracker.pending.get? packet.id).map fun r => ⟨packet.id, r, packet.payload⟩
  | .connected | .disconnected => none

theorem handleEvent_of_answered {event : Event} {a : Answered κ} (h : p.answered? event = some a) :
    p.handleEvent event =
      { p with tracker := (p.tracker.answer a.id).2 }.tell a.request.callback a.id (.ok a.answer) := by
  cases event with
  | connected => cases h
  | disconnected => cases h
  | received under data =>
    cases hp : Packet.decode data with
    | error f => simp [answered?, hp] at h
    | ok packet =>
      simp only [answered?, hp] at h
      obtain ⟨r, hr, rfl⟩ := Option.map_eq_some_iff.mp h
      simp [handleEvent, hp, Tracker.answer, hr]

theorem handleEvent_of_unanswered {event : Event} (h : p.answered? event = none) :
    p.handleEvent event = ([], p) := by
  cases event with
  | connected => rfl
  | disconnected => rfl
  | received under data =>
    cases hp : Packet.decode data with
    | error f => simp [handleEvent, hp]
    | ok packet =>
      simp only [answered?, hp] at h
      have hr : p.tracker.pending.get? packet.id = none := Option.map_eq_none_iff.mp h
      simp [handleEvent, hp, Tracker.answer, hr]

theorem answered?_spec {event : Event} {a : Answered κ} (h : p.answered? event = some a) :
    ∃ under, event = .received under (Packet.encode ⟨a.id, a.answer⟩) ∧
      p.tracker.pending.get? a.id = some a.request := by
  cases event with
  | connected => cases h
  | disconnected => cases h
  | received under data =>
    cases hp : Packet.decode data with
    | error f => simp [answered?, hp] at h
    | ok packet =>
      simp only [answered?, hp] at h
      obtain ⟨r, hr, rfl⟩ := Option.map_eq_some_iff.mp h
      exact ⟨under, by rw [Packet.encode_of_decode hp], hr⟩

theorem keeps_handleEvent (p : Producer κ) (event : Event) : p.Keeps (p.handleEvent event).2 := by
  cases h : p.answered? event with
  | none => rw [handleEvent_of_unanswered h]; exact .refl p
  | some a =>
    rw [handleEvent_of_answered h]
    exact (p.keeps_answer a.id).trans (keeps_tell _ _ _ _)

/-! ## What a producer does by itself -/

/-- A request that went under an id, and who waits for it. -/
structure Asking (κ : Type) where
  id : UInt32
  payload : Bytes
  waiter : Waiter κ

def Answered.asking (a : Answered κ) : Asking κ := ⟨a.id, a.request.payload, a.request.callback⟩

/-- What an act comes to: what is sent, the requests that go, and the notices that are given. -/
structure Task.Deed (κ : Type) where
  sent : List Sending := []
  asked : List (Asking κ) := []
  notices : List (Notice κ) := []

/-- The owner of a task sends, sends requests, forgets them or lets them expire. The hello token is not
for producers to send. -/
inductive Task.Acts (c : Carrier ω) (t : Task κ) (w : ω) : Deed κ → Task κ → ω → Prop
  | send (data : Bytes) (hd : data ≠ hello) :
      Acts c t w { sent := [⟨t.producer.broker, data, (t.producer.send c data w).1⟩] } t
        (t.producer.send c data w).2
  | request (data : Bytes) (hd : data ≠ hello) (timeout : Option Nat) (callback : κ) (now : Nat) :
      Acts c t w
        { sent := [⟨t.producer.broker, data, (t.producer.sendWith c data timeout (.callback callback) now w).1⟩]
          asked := (t.producer.sendWith c data timeout (.callback callback) now w).1.toOption.toList.map fun id =>
            ⟨id, data, .callback callback⟩ }
        ⟨(t.producer.sendWith c data timeout (.callback callback) now w).2.1, t.stage⟩
        (t.producer.sendWith c data timeout (.callback callback) now w).2.2
  | ask (data : Bytes) (hd : data ≠ hello) (now : Nat) :
      Acts c t w
        { sent := [⟨t.producer.broker, data, (t.producer.send c data w).1⟩]
          asked := (t.producer.request c data now w).1.toOption.toList.map fun f => ⟨f.id, data, .future f.slot⟩ }
        ⟨(t.producer.request c data now w).2.1, t.stage⟩ (t.producer.request c data now w).2.2
  | forget (id : UInt32) : Acts c t w {} ⟨(t.producer.forget id).2, t.stage⟩ w
  | sweep (now : Nat) :
      Acts c t w { notices := (t.producer.sweep now).2.1 } ⟨(t.producer.sweep now).2.2, t.stage⟩ w
  | tick (now : Nat) : Acts c t w { notices := (t.tick now).1 } (t.tick now).2 w

theorem pending_sendWith (c : Carrier ω) (p : Producer κ) (data : Bytes) (timeout : Option Nat)
    (waiter : Waiter κ) (now : Nat) (w : ω) {k : UInt32} {r : PendingRequest (Waiter κ)}
    (h : (p.sendWith c data timeout waiter now w).2.1.tracker.pending.get? k = some r) :
    p.tracker.pending.get? k = some r ∨
      (c.send w p.broker data).1 = .ok k ∧ data = r.payload ∧ waiter = r.callback := by
  unfold sendWith at h
  cases hs : (c.send w p.broker data).1 with
  | error f => simp only [hs, Tracker.addSent] at h; exact .inl h
  | ok id =>
    simp only [hs, Tracker.addSent, Tracker.add, Dictionary.get?_insert] at h
    split at h
    · next hk =>
      obtain rfl := Option.some.inj h
      exact .inr ⟨by rw [hk], rfl, rfl⟩
    · exact .inl h

/-- What is pending afterwards was pending, or was just sent. -/
structure Task.Asked (t t' : Task κ) (d : Deed κ) : Prop where
  broker : t'.producer.broker = t.producer.broker
  posted : ∀ s ∈ d.sent, s.endpoint = t.producer.broker ∧ s.data ≠ hello
  pending : ∀ {k r}, t'.producer.tracker.pending.get? k = some r → t.producer.tracker.pending.get? k = some r ∨
    (∃ s ∈ d.sent, s.result = .ok k ∧ s.data = r.payload) ∧ ⟨k, r.payload, r.callback⟩ ∈ d.asked

theorem Task.Asked.of_keeps {t t' : Task κ} {d : Deed κ} (h : t.producer.Keeps t'.producer) (hd : d.sent = []) :
    t.Asked t' d :=
  ⟨h.broker, fun s hs => (by rw [hd] at hs; cases hs), fun hr => .inl (h.pending hr)⟩

theorem Task.Acts.asked {c : Carrier ω} {t t' : Task κ} {w w' : ω} {d : Deed κ} (h : t.Acts c w d t' w') :
    c.Sends w d.sent w' ∧ t.Asked t' d := by
  have one : ∀ {data : Bytes} {r : Except Failure UInt32}, data ≠ hello →
      ∀ s ∈ [(⟨t.producer.broker, data, r⟩ : Sending)], s.endpoint = t.producer.broker ∧ s.data ≠ hello := by
    intro data r hd s hs
    rw [List.mem_singleton.mp hs]
    exact ⟨rfl, hd⟩
  cases h with
  | send data hd => exact ⟨.single c w _ data, rfl, one hd, fun hr => .inl hr⟩
  | request data hd timeout callback now =>
    refine ⟨.single c w _ data, rfl, one hd, fun {k r} hr => ?_⟩
    rcases pending_sendWith c t.producer data timeout _ now w hr with hr | ⟨hk, hp, hw⟩
    · exact .inl hr
    · refine .inr ⟨⟨_, List.mem_singleton.mpr rfl, hk, hp⟩, ?_⟩
      simp [sendWith, hk, ← hp, ← hw, Except.toOption]
  | ask data hd now =>
    refine ⟨.single c w _ data, rfl, one hd, fun {k r} hr => ?_⟩
    rcases pending_sendWith c t.producer data none (.future t.producer.futures) now w hr with hr | ⟨hk, hp, hw⟩
    · exact .inl hr
    · refine .inr ⟨⟨_, List.mem_singleton.mpr rfl, hk, hp⟩, ?_⟩
      simp [Producer.request, sendWith, hk, ← hp, ← hw, Except.map, Except.toOption]
  | forget id => exact ⟨.nil w, .of_keeps (t.producer.keeps_forget id) rfl⟩
  | sweep now => exact ⟨.nil w, .of_keeps (t.producer.keeps_sweep now) rfl⟩
  | tick now => exact ⟨.nil w, .of_keeps (keeps_tick t now) rfl⟩

end Producer

end Switchboard
