import Switchboard.Proofs.Client.Runs
import Switchboard.Proofs.Pending.Runs

/-!
# Futures

A request may keep its first outcome in a slot. Whatever its producer does then, and in whatever order, what the
slot shows is what the first turn that settles the request makes of it: an answer under its id, or the timeout when
a sweep finds its deadline, when it is forgotten or when another request takes its id (`Run.first_outcome`).
-/

namespace Switchboard

/-- The answer to request `id` that an event brings. -/
def Event.answer? (id : UInt32) : Event → Option Bytes
  | .received _ data =>
    match Packet.decode data with
    | .ok packet => if packet.id = id then some packet.payload else none
    | .error _ => none
  | .connected | .disconnected => none

theorem Event.answer?_eq_some_iff {e : Event} {id : UInt32} {answer : Bytes} :
    e.answer? id = some answer ↔ ∃ under, e = .received under (Packet.encode ⟨id, answer⟩) := by
  cases e with
  | connected => simp [answer?]
  | disconnected => simp [answer?]
  | received under data =>
    constructor
    · intro h
      simp only [answer?] at h
      split at h
      · next packet hp =>
        split at h
        · next hid =>
          obtain rfl := Option.some.inj h
          subst hid
          exact ⟨under, by rw [Packet.encode_of_decode hp]⟩
        · cases h
      · cases h
    · rintro ⟨under', he⟩
      obtain ⟨rfl, rfl⟩ := Event.received.inj he
      simp [answer?, Packet.decode_encode]

theorem Event.answer?_of_unanswered {κ : Type} {p : Producer κ} {e : Event} {id : UInt32}
    {r : PendingRequest (Waiter κ)} (h : p.answered? e = none) (hg : p.tracker.pending.get? id = some r) :
    e.answer? id = none := by
  cases ha : e.answer? id with
  | none => rfl
  | some answer =>
    obtain ⟨under, rfl⟩ := Event.answer?_eq_some_iff.mp ha
    simp [Producer.answered?, Packet.decode_encode, hg] at h

theorem Told.fills_iff {κ : Type} {x : Told κ} {slot : Nat} :
    x.fills slot = true ↔ x.waiter = .future slot := by
  obtain ⟨id, waiter, outcome, time⟩ := x
  cases waiter <;> simp [fills]

namespace Producer

variable {κ ω : Type}

/-! ## Turns -/

inductive Act (κ : Type) where
  | event (e : Event)
  | send (data : Bytes)
  | request (data : Bytes) (timeout : Option Nat) (callback : κ)
  /-- Send a request and keep its first outcome. -/
  | ask (data : Bytes)
  | forget (id : UInt32)
  | sweep

structure Turn (κ : Type) where
  before : Producer κ
  now : Nat
  act : Act κ
  /-- What a send came to. -/
  result : Option (Except Failure UInt32)
  after : Producer κ

def turn (c : Carrier ω) (w : ω) (now : Nat) (p : Producer κ) : Act κ → Turn κ
  | .event e => ⟨p, now, .event e, none, (p.handleEvent e).2⟩
  | .send data => ⟨p, now, .send data, some (p.send c data w).1, p⟩
  | .request data timeout callback =>
    let r := p.sendWith c data timeout (.callback callback) now w
    ⟨p, now, .request data timeout callback, some r.1, r.2.1⟩
  | .ask data =>
    let r := p.request c data now w
    ⟨p, now, .ask data, some (r.1.map (·.id)), r.2.1⟩
  | .forget id => ⟨p, now, .forget id, none, (p.forget id).2⟩
  | .sweep => ⟨p, now, .sweep, none, (p.sweep now).2.2⟩

/-- What a turn makes of a request that waits under `id` until `deadline`. -/
def Turn.settles? (t : Turn κ) (id : UInt32) (deadline : Nat) : Option (Except Failure Bytes) :=
  match t.act with
  | .event e => (e.answer? id).map .ok
  | .send _ => none
  | .request .. | .ask _ => if t.result = some (.ok id) then some (.error (.timeout id)) else none
  | .forget id' => if id' = id then some (.error (.timeout id)) else none
  | .sweep => if deadline ≤ t.now then some (.error (.timeout id)) else none

/-- Who is told what in a turn. -/
def Turn.told (t : Turn κ) : List (Told κ) :=
  match t.act with
  | .event e => t.before.heard t.now e
  | .sweep => expired t.now (t.before.tracker.sweep t.now).1
  | _ => []

/-- A run from `start`, over any connections and at any times. -/
inductive Run (start : Producer κ) : List (Turn κ) → Producer κ → Prop
  | start : Run start [] start
  | next {ω : Type} {turns : List (Turn κ)} {p : Producer κ} (h : Run start turns p) (c : Carrier ω) (w : ω)
      (now : Nat) (a : Act κ) : Run start (turns ++ [p.turn c w now a]) (p.turn c w now a).after

/-! ## What a turn changes -/

theorem futures_tell (p : Producer κ) (waiter : Waiter κ) (id : UInt32) (outcome : Except Failure Bytes) :
    (p.tell waiter id outcome).2.futures = p.futures := by
  unfold tell
  split
  · rfl
  · split <;> rfl

theorem futures_tellTimeouts : ∀ (requests : List (UInt32 × Waiter κ)) (p : Producer κ),
    (tellTimeouts requests p).2.futures = p.futures
  | [], _ => rfl
  | (id, waiter) :: rest, p => (futures_tellTimeouts rest _).trans (p.futures_tell waiter id _)

theorem futures_handleEvent (p : Producer κ) (e : Event) : (p.handleEvent e).2.futures = p.futures := by
  cases h : p.answered? e with
  | none => rw [handleEvent_of_unanswered h]
  | some a => rw [handleEvent_of_answered h, futures_tell]

section
variable (c : Carrier ω) (w : ω) (now : Nat) (p : Producer κ) (a : Act κ)

theorem futures_le_turn : p.futures ≤ (p.turn c w now a).after.futures := by
  cases a with
  | event e => exact Nat.le_of_eq (p.futures_handleEvent e).symm
  | ask data => exact Nat.le_succ _
  | sweep =>
    have h := futures_tellTimeouts (p.tracker.sweep now).1 { p with tracker := (p.tracker.sweep now).2 }
    exact Nat.le_of_eq h.symm
  | send | request | forget => exact Nat.le_refl _

theorem outcomes_turn (slot : Nat) : (p.turn c w now a).after.outcomes.get? slot =
    (p.outcomes.get? slot).or (((p.turn c w now a).told.find? (·.fills slot)).map (·.outcome)) := by
  cases a with
  | event e => exact (p.tells_handleEvent now e).outcomes slot
  | sweep => exact (p.tells_sweep now).outcomes slot
  | send | request | ask | forget => exact (Option.or_none ..).symm

theorem held_of_told {x : Told κ} (hx : x ∈ (p.turn c w now a).told) :
    ∃ r, p.tracker.pending.get? x.id = some r ∧ r.callback = x.waiter := by
  cases a with
  | event e =>
    have hx : x ∈ p.heard now e := hx
    rcases p.handleEvent_heard now e with ⟨hh, -⟩ | ⟨a, hg, hh, -⟩
    · rw [hh] at hx
      cases hx
    · rw [hh, List.mem_singleton] at hx
      exact ⟨a.request, hx ▸ hg, hx ▸ rfl⟩
  | sweep =>
    obtain ⟨due, hd, rfl⟩ := List.mem_map.mp hx
    obtain ⟨r, hg, -, hr⟩ := (p.tracker.mem_sweep_iff now due.1 due.2).mp hd
    exact ⟨r, hg, hr⟩
  | send | request | ask | forget => cases hx

/-- A turn that tracks a request for a future gives it a slot of its own. -/
theorem pending_turn {k : UInt32} {r : PendingRequest (Waiter κ)}
    (h : (p.turn c w now a).after.tracker.pending.get? k = some r) :
    p.tracker.pending.get? k = some r ∨
      ∀ slot, r.callback = .future slot → p.futures ≤ slot ∧ slot < (p.turn c w now a).after.futures := by
  cases a with
  | event e => exact .inl ((p.keeps_handleEvent e).pending h)
  | send data => exact .inl h
  | request data timeout callback =>
    simp only [turn, sendWith, Tracker.get?_addSent] at h
    split at h
    · obtain rfl := Option.some.inj h
      refine .inr fun slot hs => ?_
      cases hs
    · exact .inl h
  | ask data =>
    simp only [turn, request, sendWith, Tracker.get?_addSent] at h
    split at h
    · obtain rfl := Option.some.inj h
      refine .inr fun slot hs => ?_
      obtain rfl := Waiter.future.inj hs
      exact ⟨Nat.le_refl _, Nat.lt_succ_self _⟩
    · exact .inl h
  | forget id => exact .inl ((p.keeps_forget id).pending h)
  | sweep => exact .inl ((p.keeps_sweep now).pending h)

/-- Every slot that is waited for or has an outcome was given out. -/
structure Allots (p : Producer κ) : Prop where
  waiting : ∀ {k r slot}, p.tracker.pending.get? k = some r → r.callback = .future slot → slot < p.futures
  outcomes : ∀ {slot outcome}, p.outcomes.get? slot = some outcome → slot < p.futures

theorem allots_ofOptions (broker : Endpoint) (options : ProducerOptions) :
    (ofOptions broker options : Producer κ).Allots :=
  ⟨fun h => (by cases h), fun h => (by cases h)⟩

variable {p} in
theorem Allots.turn (h : p.Allots) : (p.turn c w now a).after.Allots := by
  have hle := futures_le_turn c w now p a
  constructor
  case waiting =>
    intro k r slot hr hs
    rcases pending_turn c w now p a hr with hr | hnew
    · exact Nat.lt_of_lt_of_le (h.waiting hr hs) hle
    · exact (hnew slot hs).2
  case outcomes =>
    intro slot outcome ho
    rw [outcomes_turn, Option.or_eq_some_iff] at ho
    rcases ho with ho | ⟨-, ho⟩
    · exact Nat.lt_of_lt_of_le (h.outcomes ho) hle
    · obtain ⟨x, hx, -⟩ := Option.map_eq_some_iff.mp ho
      obtain ⟨r, hr, hc⟩ := held_of_told c w now p a (List.mem_of_find?_eq_some hx)
      exact Nat.lt_of_lt_of_le (h.waiting hr (hc.trans (Told.fills_iff.mp (List.find?_some hx)))) hle

end

theorem Run.allots {p₀ p : Producer κ} {turns : List (Turn κ)} (h : Run p₀ turns p) (h₀ : p₀.Allots) :
    p.Allots := by
  induction h with
  | start => exact h₀
  | next _ c w now a ih => exact ih.turn c w now a

end Producer

/-! ## What a future shows -/

namespace Future

variable {κ ω : Type} {f : Future} {deadline : Nat} {p : Producer κ} {x : Option (Except Failure Bytes)}

/-- The slot of a future was given out, and to no request but its own. -/
structure Owns (f : Future) (p : Producer κ) : Prop where
  given : f.slot < p.futures
  sole : ∀ {k r}, p.tracker.pending.get? k = some r → r.callback = .future f.slot → k = f.id

/-- A future shows `x`: it waits until its deadline, has an outcome, or its request is gone without one. -/
inductive Shows (f : Future) (deadline : Nat) (p : Producer κ) : Option (Except Failure Bytes) → Prop
  | waiting {r : PendingRequest (Waiter κ)} (hg : p.tracker.pending.get? f.id = some r)
      (hc : r.callback = .future f.slot) (hd : r.deadline = deadline) (ho : p.outcomes.get? f.slot = none) :
      Shows f deadline p none
  | told {outcome : Except Failure Bytes} (ho : p.outcomes.get? f.slot = some outcome) :
      Shows f deadline p (some outcome)
  | dropped (hn : ∀ r, p.tracker.pending.get? f.id = some r → r.callback ≠ .future f.slot)
      (ho : p.outcomes.get? f.slot = none) : Shows f deadline p (some (.error (.timeout f.id)))

theorem awaits_iff (p : Producer κ) (slot : Nat) : p.awaits slot = true ↔
    ∃ k r, p.tracker.pending.get? k = some r ∧ r.callback = .future slot := by
  simp only [Producer.awaits, List.any_eq_true]
  constructor
  · rintro ⟨⟨k, r⟩, he, hs⟩
    refine ⟨k, r, (p.tracker.pending.mem_entries_iff k r).mp he, ?_⟩
    cases hc : r.callback with
    | callback callback => simp [hc] at hs
    | future s => simpa [hc] using hs
  · rintro ⟨k, r, hg, hs⟩
    exact ⟨(k, r), (p.tracker.pending.mem_entries_iff k r).mpr hg, by simp [hs]⟩

theorem Shows.poll (h : f.Shows deadline p x) (ho : f.Owns p) : p.poll f = x := by
  unfold Producer.poll
  cases h with
  | waiting hg hc hd hn =>
    rw [hn]
    exact if_pos ((awaits_iff p f.slot).mpr ⟨_, _, hg, hc⟩)
  | told hs => rw [hs]
  | dropped hn hs =>
    rw [hs]
    refine if_neg fun ha => ?_
    obtain ⟨k, r, hg, hc⟩ := (awaits_iff p f.slot).mp ha
    obtain rfl := ho.sole hg hc
    exact hn r hg hc

section
variable (c : Carrier ω) (w : ω) (now : Nat) (a : Producer.Act κ)

theorem Owns.turn (ho : f.Owns p) : f.Owns (p.turn c w now a).after := by
  refine ⟨Nat.lt_of_lt_of_le ho.given (Producer.futures_le_turn c w now p a), fun {k r} hg hc => ?_⟩
  rcases Producer.pending_turn c w now p a hg with hg | hnew
  · exact ho.sole hg hc
  · exact absurd (hnew f.slot hc).1 (Nat.not_le.mpr ho.given)

variable {c w now a}

theorem Owns.id_of_told (ho : f.Owns p) {x : Told κ} (hx : x ∈ (p.turn c w now a).told)
    (hw : x.waiter = .future f.slot) : x.id = f.id := by
  obtain ⟨r, hg, hc⟩ := Producer.held_of_told c w now p a hx
  exact ho.sole hg (hc.trans hw)

theorem outcome_of_untold (hn : p.outcomes.get? f.slot = none)
    (hx : ∀ x ∈ (p.turn c w now a).told, x.waiter ≠ .future f.slot) :
    (p.turn c w now a).after.outcomes.get? f.slot = none := by
  have hf : (p.turn c w now a).told.find? (·.fills f.slot) = none :=
    List.find?_eq_none.mpr fun x hm ht => hx x hm (Told.fills_iff.mp ht)
  rw [Producer.outcomes_turn, hn, hf]
  rfl

/-- Of all that is said of its request in one turn a future keeps the first. -/
theorem Owns.outcome_of_told (ho : f.Owns p) (hn : p.outcomes.get? f.slot = none) {x : Told κ}
    (hx : x ∈ (p.turn c w now a).told) (hw : x.waiter = .future f.slot)
    (hall : ∀ y ∈ (p.turn c w now a).told, y.id = f.id → y.outcome = x.outcome) :
    (p.turn c w now a).after.outcomes.get? f.slot = some x.outcome := by
  rw [Producer.outcomes_turn, hn, Option.none_or]
  cases hf : (p.turn c w now a).told.find? (·.fills f.slot) with
  | none => exact absurd (Told.fills_iff.mpr hw) (List.find?_eq_none.mp hf x hx)
  | some y =>
    have hy := List.mem_of_find?_eq_some hf
    exact congrArg some (hall y hy (ho.id_of_told hy (Told.fills_iff.mp (List.find?_some hf))))

/-! ### A future that waits -/

section
variable {r : PendingRequest (Waiter κ)} (hg : p.tracker.pending.get? f.id = some r)
  (hc : r.callback = .future f.slot) (hn : p.outcomes.get? f.slot = none)
include hg hc hn

/-- A request that is sent takes the place of another one of its id. -/
theorem shows_of_sent {p' : Producer κ} {r' : PendingRequest (Waiter κ)} {x : Except Failure UInt32}
    (ht : p'.tracker = p.tracker.addSent r' x) (ho' : p'.outcomes = p.outcomes)
    (hc' : r'.callback ≠ .future f.slot) :
    f.Shows r.deadline p' (if some x = some (.ok f.id) then some (.error (.timeout f.id)) else none) := by
  have hg' : p'.tracker.pending.get? f.id = if x = .ok f.id then some r' else some r := by
    rw [ht, Tracker.get?_addSent, hg]
  rw [← ho'] at hn
  by_cases hx : x = .ok f.id
  · rw [if_pos hx] at hg'
    rw [if_pos (congrArg some hx)]
    refine .dropped (fun r₁ h₁ => ?_) hn
    obtain rfl := Option.some.inj (hg'.symm.trans h₁)
    exact hc'
  · rw [if_neg hx] at hg'
    rw [if_neg fun h => hx (Option.some.inj h)]
    exact .waiting hg' hc rfl hn

theorem shows_of_forget (id : UInt32) :
    f.Shows r.deadline (p.forget id).2 (if id = f.id then some (.error (.timeout f.id)) else none) := by
  have hg' : (p.forget id).2.tracker.pending.get? f.id = if f.id = id then none else some r := by
    show (p.tracker.pending.erase id).get? f.id = _
    rw [Dictionary.get?_erase, hg]
  by_cases hid : id = f.id
  · rw [if_pos hid.symm] at hg'
    rw [if_pos hid]
    refine .dropped (fun r' h' => ?_) hn
    rw [hg'] at h'
    cases h'
  · rw [if_neg (Ne.symm hid)] at hg'
    rw [if_neg hid]
    exact .waiting hg' hc rfl hn

theorem shows_of_event (ho : f.Owns p) (e : Event) :
    f.Shows r.deadline (p.turn c w now (.event e)).after ((e.answer? f.id).map .ok) := by
  have hafter : (p.turn c w now (.event e)).after = (p.handleEvent e).2 := rfl
  cases hq : p.answered? e with
  | none =>
    rw [hafter, Producer.handleEvent_of_unanswered hq, Event.answer?_of_unanswered hq hg]
    exact .waiting hg hc rfl hn
  | some a =>
    obtain ⟨under, he, hga⟩ := Producer.answered?_spec hq
    have htold : (p.turn c w now (.event e)).told = [⟨a.id, a.request.callback, .ok a.answer, now⟩] := by
      show p.heard now e = _
      rw [Producer.heard, hq]
      rfl
    have hans : e.answer? f.id = if a.id = f.id then some a.answer else none := by
      rw [he, Event.answer?, Packet.decode_encode]
    rw [hans]
    by_cases hid : a.id = f.id
    · rw [if_pos hid]
      obtain rfl := Option.some.inj ((hid ▸ hga).symm.trans hg)
      refine .told (ho.outcome_of_told hn (x := ⟨a.id, a.request.callback, .ok a.answer, now⟩) ?_ hc ?_)
      · rw [htold]
        exact List.mem_singleton_self _
      · intro y hy _
        rw [htold] at hy
        rw [List.mem_singleton.mp hy]
    · rw [if_neg hid]
      refine .waiting ?_ hc rfl (outcome_of_untold hn fun x hx hw => hid ?_)
      · rw [hafter, Producer.handleEvent_of_answered hq, Producer.tracker_tell]
        exact (p.tracker.get?_answer_of_ne (Ne.symm hid)).trans hg
      · have hx' := ho.id_of_told hx hw
        rw [htold] at hx
        rw [← hx', List.mem_singleton.mp hx]

theorem shows_of_sweep (ho : f.Owns p) : f.Shows r.deadline (p.turn c w now .sweep).after
    (if r.deadline ≤ now then some (.error (.timeout f.id)) else none) := by
  by_cases hd : r.deadline ≤ now
  · rw [if_pos hd]
    refine .told (ho.outcome_of_told hn (x := ⟨f.id, r.callback, .error (.timeout f.id), now⟩) ?_ hc ?_)
    · exact List.mem_map.mpr ⟨(f.id, r.callback), (p.tracker.mem_sweep_iff ..).mpr ⟨r, hg, hd, rfl⟩, rfl⟩
    · intro y hy hid
      obtain ⟨due, -, rfl⟩ := List.mem_map.mp hy
      exact congrArg (fun id => Except.error (Failure.timeout id)) hid
  · rw [if_neg hd]
    refine .waiting ?_ hc rfl (outcome_of_untold hn fun x hx hw => hd ?_)
    · show (p.sweep now).2.2.tracker.pending.get? f.id = some r
      rw [Producer.tracker_sweep, Tracker.get?_sweep, hg]
      simp [hd]
    · have hid := ho.id_of_told hx hw
      obtain ⟨⟨id, k⟩, hm, rfl⟩ := List.mem_map.mp hx
      obtain ⟨r', hg', hd', -⟩ := (p.tracker.mem_sweep_iff now id k).mp hm
      obtain rfl : id = f.id := hid
      obtain rfl := Option.some.inj (hg'.symm.trans hg)
      exact hd'

end

variable (c w now a)

theorem Shows.turn (hs : f.Shows deadline p x) (ho : f.Owns p) :
    f.Shows deadline (p.turn c w now a).after (x.or ((p.turn c w now a).settles? f.id deadline)) := by
  -- what a future shows stays; only one that waits can be settled
  cases hs with
  | told h =>
    rw [Option.some_or]
    apply Shows.told
    rw [Producer.outcomes_turn, h, Option.some_or]
  | dropped hn h =>
    rw [Option.some_or]
    refine .dropped (fun r hg hc => ?_) (outcome_of_untold h fun x hx hw => ?_)
    · rcases Producer.pending_turn c w now p a hg with hg | hnew
      · exact hn r hg hc
      · exact Nat.not_le.mpr ho.given (hnew f.slot hc).1
    · obtain ⟨r, hg, hc⟩ := Producer.held_of_told c w now p a hx
      rw [ho.id_of_told hx hw] at hg
      exact hn r hg (hc.trans hw)
  | @waiting r hg hc hd h =>
    rw [Option.none_or]
    subst hd
    cases a with
    | event e => exact shows_of_event hg hc h ho e
    | send data => exact .waiting hg hc rfl h
    | request data timeout callback => exact shows_of_sent hg hc h rfl rfl (by simp)
    | ask data =>
      -- the request that is sent may have the same id, but never the same slot
      have hr := congrArg some (p.result_request now c data w)
      have hs : f.Shows r.deadline (p.turn c w now (.ask data)).after
          (if some (c.send w p.broker data).1 = some (.ok f.id) then some (.error (.timeout f.id)) else none) :=
        shows_of_sent hg hc h rfl rfl fun hslot => Nat.ne_of_lt ho.given (Waiter.future.inj hslot).symm
      rw [← hr] at hs
      exact hs
    | forget id => exact shows_of_forget hg hc h id
    | sweep => exact shows_of_sweep hg hc h ho

end

end Future

/-! ## Over a run -/

namespace Producer

section
variable {κ ω : Type} {p p' : Producer κ} {turns : List (Turn κ)}

theorem Run.shows {f : Future} {deadline : Nat} (h : Run p turns p') (ho : f.Owns p)
    (hs : f.Shows deadline p none) :
    f.Owns p' ∧ f.Shows deadline p' (turns.findSome? (·.settles? f.id deadline)) := by
  induction h with
  | start => exact ⟨ho, hs⟩
  | next h c w now a ih =>
    obtain ⟨ho, hs⟩ := ih
    refine ⟨ho.turn c w now a, ?_⟩
    rw [List.findSome?_append]
    have hone : ∀ t : Turn κ, [t].findSome? (·.settles? f.id deadline) = t.settles? f.id deadline := by
      intro t
      cases h : t.settles? f.id deadline <;> simp [h]
    rw [hone]
    exact hs.turn c w now a ho

theorem Allots.asked (h : p.Allots) {c : Carrier ω} {w : ω} {payload : Bytes} {id : UInt32}
    (hs : (c.send w p.broker payload).1 = .ok id) (now : Nat) :
    (⟨id, p.futures⟩ : Future).Owns (p.request c payload now w).2.1 ∧
      (⟨id, p.futures⟩ : Future).Shows (now + p.options.requestTimeout) (p.request c payload now w).2.1 none := by
  have hg : ∀ k, (p.request c payload now w).2.1.tracker.pending.get? k =
      if k = id then some ⟨payload, .future p.futures, now + p.options.requestTimeout⟩
      else p.tracker.pending.get? k := by
    intro k
    simp only [request, sendWith, hs, Tracker.get?_addSent, Except.ok.injEq, eq_comm (a := id)]
    rfl
  refine ⟨⟨Nat.lt_succ_self _, fun {k r} hk hc => ?_⟩, .waiting ((hg id).trans (if_pos rfl)) rfl rfl ?_⟩
  · rw [hg] at hk
    split at hk
    · next hid => exact hid
    · exact absurd (h.waiting hk hc) (Nat.lt_irrefl _)
  · cases ho : p.outcomes.get? p.futures with
    | none => exact ho
    | some outcome => exact absurd (h.outcomes ho) (Nat.lt_irrefl _)

/-- **The first outcome counts.** A request whose send fails fails with it, and nothing is tracked. Any other shows,
after whatever its producer does, what the first turn that settles it makes of it, and until then nothing. -/
theorem Run.first_outcome {broker : Endpoint} {options : ProducerOptions} {past : List (Turn κ)}
    (h : Run (ofOptions broker options) past p) (c : Carrier ω) (w : ω) (now : Nat) (payload : Bytes) :
    (∀ failure, (c.send w p.broker payload).1 = .error failure →
      (p.request c payload now w).1 = .error failure ∧ (p.request c payload now w).2.1.tracker = p.tracker) ∧
    ∀ id, (c.send w p.broker payload).1 = .ok id → ∃ future, (p.request c payload now w).1 = .ok future ∧
      future.id = id ∧ ∀ turns p', Run (p.request c payload now w).2.1 turns p' →
        p'.poll future = turns.findSome? (·.settles? id (now + p.options.requestTimeout)) := by
  constructor
  · intro failure hf
    simp only [request, sendWith, hf]
    exact ⟨rfl, rfl⟩
  · intro id hs
    have hr : (p.request c payload now w).1 = .ok ⟨id, p.futures⟩ := by
      simp only [request, sendWith, hs]
      rfl
    refine ⟨_, hr, rfl, fun turns p' hrun => ?_⟩
    obtain ⟨ho, hw⟩ := (h.allots (allots_ofOptions broker options)).asked hs now
    obtain ⟨ho', hs'⟩ := hrun.shows ho hw
    exact hs'.poll ho'

/-- A short packet, another id and an early sweep settle nothing. The request is answered before it is forgotten,
or swept before its answer arrives. -/
theorem first_outcome_both_orders : ∃ (p p₁ p₂ : Producer Unit) (f : Future) (turns₁ turns₂ : List (Turn Unit)),
    p.tracker.mode = .multiple ∧ f.id = 7 ∧ Run p turns₁ p₁ ∧ Run p turns₂ p₂ ∧
    turns₁.map (·.act) = [.event (.received 0 [7, 0, 0]), .event (.received 0 [9, 0, 0, 0, 5]), .sweep,
      .event (.received 0 [7, 0, 0, 0, 42]), .event (.received 0 [7, 0, 0, 0, 43]), .forget 7, .sweep] ∧
    p₁.poll f = some (.ok [42]) ∧
    turns₂.map (·.act) = [.sweep, .event (.received 0 [7, 0, 0, 0, 42])] ∧
    p₂.poll f = some (.error (.timeout 7)) := by
  let c : Carrier UInt32 := ⟨fun w _ _ => (.ok w, w + 1)⟩
  let p : Producer Unit := .ofOptions ⟨"broker", 0, .near⟩ { answerMode := .multiple, requestTimeout := 10 }
  have fresh : Run p [] p := .start
  obtain ⟨-, hok⟩ := fresh.first_outcome c 7 0 [1]
  obtain ⟨f, -, hid, hpoll⟩ := hok 7 rfl
  have asked : Run (p.request c [1] 0 7).2.1 [] (p.request c [1] 0 7).2.1 := .start
  have early := ((asked.next c 8 1 (.event (.received 0 [7, 0, 0]))).next c 8 2
    (.event (.received 0 [9, 0, 0, 0, 5]))).next c 8 9 .sweep
  have answered := (((early.next c 8 9 (.event (.received 0 [7, 0, 0, 0, 42]))).next c 8 9
    (.event (.received 0 [7, 0, 0, 0, 43]))).next c 8 9 (.forget 7)).next c 8 10 .sweep
  have late := (asked.next c 8 10 .sweep).next c 8 10 (.event (.received 0 [7, 0, 0, 0, 42]))
  exact ⟨_, _, _, f, _, _, rfl, hid, answered, late, rfl, (hpoll _ _ answered).trans rfl, rfl,
    (hpoll _ _ late).trans rfl⟩

end

end Producer

end Switchboard
