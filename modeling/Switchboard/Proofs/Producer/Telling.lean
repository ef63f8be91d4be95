import Mathlib.Data.List.Pairwise
import Switchboard.Proofs.Producer

/-!
# What a producer tells

Events, sweeps and ticks tell waiters what became of their requests: callbacks are given notice, and futures
keep the first outcome. A ledger holds what went and what was told, and every act and every event keeps it
in balance: an answer is told to the one who waits for the request that it names, and nobody is told
anything else but that time is over.
-/

namespace Switchboard

/-! ## Who is told what -/

/-- A waiter is told the outcome of a request. -/
structure Told (κ : Type) where
  id : UInt32
  waiter : Waiter κ
  outcome : Except Failure Bytes
  time : Nat

namespace Told

variable {κ : Type}

def notice? (x : Told κ) : Option (Notice κ) :=
  match x.waiter with
  | .callback k => some ⟨k, x.id, x.outcome⟩
  | .future _ => none

/-- It is the future of this slot that is told. -/
def fills (slot : Nat) (x : Told κ) : Bool :=
  match x.waiter with
  | .callback _ => false
  | .future s => s = slot

/-- An answer that is told: for which request, to whom, and what it is. -/
def answer? (x : Told κ) : Option (UInt32 × Waiter κ × Bytes) :=
  match x.outcome with
  | .ok a => some (x.id, x.waiter, a)
  | .error _ => none

end Told

namespace Producer

variable {κ : Type} (p : Producer κ) (now : Nat)

/-- Who is told what when an event arrives. -/
def heard (event : Event) : List (Told κ) :=
  (p.answered? event).toList.map fun a => ⟨a.id, a.request.callback, .ok a.answer, now⟩

def expired (requests : List (UInt32 × Waiter κ)) : List (Told κ) :=
  requests.map fun e => ⟨e.1, e.2, .error (.timeout e.1), now⟩

/-- The callbacks among those who were told are given notice, and a future without an outcome has the
first that it is told. -/
structure Tells (told : List (Told κ)) (notices : List (Notice κ)) (p' : Producer κ) : Prop where
  notices_eq : notices = told.filterMap (·.notice?)
  outcomes : ∀ slot, p'.outcomes.get? slot =
    (p.outcomes.get? slot).or ((told.find? (·.fills slot)).map (·.outcome))

variable {p} in
theorem Tells.trans {p' p'' : Producer κ} {told told' : List (Told κ)} {notices notices' : List (Notice κ)}
    (h : p.Tells told notices p') (h' : p'.Tells told' notices' p'') :
    p.Tells (told ++ told') (notices ++ notices') p'' := by
  refine ⟨?_, fun slot => ?_⟩
  · rw [h.notices_eq, h'.notices_eq, List.filterMap_append]
  · rw [h'.outcomes, h.outcomes, List.find?_append, Option.map_or, Option.or_assoc]

theorem Tells.of_eq {p' : Producer κ} (h : p'.outcomes = p.outcomes) : p.Tells [] [] p' :=
  ⟨rfl, fun slot => by rw [h]; exact (Option.or_none ..).symm⟩

theorem Tells.of_tracker {t : Tracker (Waiter κ)} {told : List (Told κ)} {notices : List (Notice κ)}
    {p p' : Producer κ} (h : { p with tracker := t }.Tells told notices p') : p.Tells told notices p' :=
  ⟨h.notices_eq, h.outcomes⟩

theorem tells_tell (x : Told κ) :
    p.Tells [x] (p.tell x.waiter x.id x.outcome).1 (p.tell x.waiter x.id x.outcome).2 := by
  obtain ⟨id, waiter, outcome, time⟩ := x
  cases waiter with
  | callback k => exact ⟨rfl, fun slot => (Option.or_none ..).symm⟩
  | future s =>
    dsimp only [tell]
    cases hc : p.outcomes.contains s with
    | true =>
      obtain ⟨v, hv⟩ := (p.outcomes.contains_iff s).mp hc
      refine ⟨rfl, fun slot => ?_⟩
      by_cases hs : s = slot
      · subst hs; simp [hv]
      · simp [Told.fills, hs]
    | false =>
      have hn : p.outcomes.get? s = none := by
        cases hg : p.outcomes.get? s with
        | none => rfl
        | some v => rw [(p.outcomes.contains_iff s).mpr ⟨v, hg⟩] at hc; cases hc
      refine ⟨rfl, fun slot => ?_⟩
      by_cases hs : s = slot
      · subst hs; simp [Told.fills, hn, Dictionary.get?_insert]
      · simp [Told.fills, hs, Dictionary.get?_insert, Ne.symm hs]

theorem tells_tellTimeouts : ∀ (requests : List (UInt32 × Waiter κ)) (p : Producer κ),
    p.Tells (expired now requests) (tellTimeouts requests p).1 (tellTimeouts requests p).2
  | [], p => .of_eq p rfl
  | (id, waiter) :: rest, p =>
    (p.tells_tell ⟨id, waiter, .error (.timeout id), now⟩).trans (tells_tellTimeouts rest _)

theorem tells_handleEvent (event : Event) :
    p.Tells (p.heard now event) (p.handleEvent event).1 (p.handleEvent event).2 := by
  unfold heard
  cases h : p.answered? event with
  | none =>
    rw [handleEvent_of_unanswered h]
    exact .of_eq p rfl
  | some a =>
    rw [handleEvent_of_answered h]
    exact .of_tracker (tells_tell _ ⟨a.id, a.request.callback, .ok a.answer, now⟩)

theorem tells_sweep : p.Tells (expired now (p.tracker.sweep now).1) (p.sweep now).2.1 (p.sweep now).2.2 :=
  .of_tracker (tells_tellTimeouts now _ _)

/-! ## Ledgers -/

/-- The slot of the future that waits for the request. -/
def Asking.slot? (a : Asking κ) : Option Nat :=
  match a.waiter with
  | .callback _ => none
  | .future slot => some slot

/-- The history of a producer: the requests that went, the notices that it gave and the answers that it
took. -/
structure Ledger (κ : Type) where
  asked : List (Asking κ) := []
  notices : List (Notice κ) := []
  answers : List (Answered κ) := []

def Answered.entry (a : Answered κ) : UInt32 × Waiter κ × Bytes := (a.id, a.request.callback, a.answer)

/-- What is told is these answers, to those who wait for them, and that time is over. -/
structure Covers (answers : List (Answered κ)) (told : List (Told κ)) : Prop where
  answers_eq : told.filterMap (·.answer?) = answers.map (·.entry)
  timeouts : ∀ x ∈ told, ∀ f, x.outcome = .error f → f = .timeout x.id

/-- What a producer has told is that time is over, or an answer of the ledger, to the one who waits for the
request that the answer is for. -/
structure Ledger.Balances (l : Ledger κ) (p : Producer κ) : Prop where
  tells : ∃ told, (ofOptions p.broker p.options).Tells told l.notices p ∧ Covers l.answers told
  answers : ∀ a ∈ l.answers, a.asking ∈ l.asked
  pending : ∀ {k r}, p.tracker.pending.get? k = some r → ⟨k, r.payload, r.callback⟩ ∈ l.asked
  /-- No two requests have one future. -/
  slots : (l.asked.filterMap (·.slot?)).Sublist (List.range p.futures)

theorem Ledger.balances_ofOptions (broker : Endpoint) (options : ProducerOptions) :
    Ledger.Balances {} (ofOptions (κ := κ) broker options) where
  tells := ⟨[], .of_eq _ rfl, rfl, fun x hx => by cases hx⟩
  answers := fun a ha => by cases ha
  pending := fun {k r} hr => by cases hr
  slots := .refl _

theorem covers_expired (requests : List (UInt32 × Waiter κ)) : Covers [] (expired now requests) := by
  refine ⟨by simp [expired, Told.answer?], fun x hx f hf => ?_⟩
  obtain ⟨e, -, rfl⟩ := List.mem_map.mp hx
  exact (Except.error.inj hf).symm

theorem covers_heard (event : Event) : Covers (p.answered? event).toList (p.heard now event) := by
  refine ⟨?_, fun x hx f hf => ?_⟩
  · cases h : p.answered? event <;> simp [heard, h, Told.answer?, Answered.entry]
  · obtain ⟨a, -, rfl⟩ := List.mem_map.mp hx
    cases hf

section
variable {p} {l : Ledger κ} {answers answers' : List (Answered κ)} {told told' : List (Told κ)}

theorem Covers.append (h : Covers answers told) (h' : Covers answers' told') :
    Covers (answers ++ answers') (told ++ told') := by
  refine ⟨?_, fun x hx => (List.mem_append.mp hx).elim (h.timeouts x) (h'.timeouts x)⟩
  rw [List.filterMap_append, List.map_append, h.answers_eq, h'.answers_eq]

theorem Covers.mem_answers (h : Covers answers told) {x : Told κ} (hx : x ∈ told) {a : Bytes}
    (ho : x.outcome = .ok a) :
    ∃ b ∈ answers, b.id = x.id ∧ b.request.callback = x.waiter ∧ b.answer = a := by
  have hm : (x.id, x.waiter, a) ∈ told.filterMap (·.answer?) :=
    List.mem_filterMap.mpr ⟨x, hx, by rw [Told.answer?, ho]⟩
  rw [h.answers_eq] at hm
  obtain ⟨b, hb, he⟩ := List.mem_map.mp hm
  obtain ⟨hid, he⟩ := Prod.mk.inj he
  obtain ⟨hw, ha⟩ := Prod.mk.inj he
  exact ⟨b, hb, hid, hw, ha⟩

theorem Ledger.Balances.tells_append (h : l.Balances p) {p' : Producer κ} {notices : List (Notice κ)}
    (ht : p.Tells told notices p') (hc : Covers answers told) : ∃ told,
      (ofOptions p'.broker p'.options).Tells told (l.notices ++ notices) p' ∧ Covers (l.answers ++ answers) told := by
  obtain ⟨before, hb, hbc⟩ := h.tells
  have hall := hb.trans ht
  exact ⟨before ++ told, ⟨hall.notices_eq, hall.outcomes⟩, hbc.append hc⟩

theorem Ledger.Balances.handleEvent (h : l.Balances p) (event : Event) :
    Ledger.Balances { l with
      notices := l.notices ++ (p.handleEvent event).1
      answers := l.answers ++ (p.answered? event).toList } (p.handleEvent event).2 := by
  have hk := p.keeps_handleEvent event
  refine ⟨h.tells_append (p.tells_handleEvent 0 event) (p.covers_heard 0 event), fun a hm => ?_,
    fun hr => h.pending (hk.pending hr), by rw [hk.futures]; exact h.slots⟩
  rcases List.mem_append.mp hm with hm | hm
  · exact h.answers a hm
  · -- the request was pending, so it is one of those that went
    obtain ⟨-, -, hg⟩ := answered?_spec (Option.mem_toList.mp hm)
    exact h.pending hg

/-- A notice of an answer goes to the callback of the request that the answer is for. -/
theorem Ledger.Balances.of_notice (h : l.Balances p) {x : Notice κ} (hx : x ∈ l.notices) {a : Bytes}
    (ho : x.outcome = .ok a) :
    ∃ b ∈ l.answers, b.id = x.id ∧ b.request.callback = .callback x.callback ∧ b.answer = a := by
  obtain ⟨told, ht, hc⟩ := h.tells
  rw [ht.notices_eq] at hx
  obtain ⟨y, hy, hn⟩ := List.mem_filterMap.mp hx
  unfold Told.notice? at hn
  split at hn
  · next k hk =>
    obtain rfl := Option.some.inj hn
    obtain ⟨b, hb, hid, hw, ha⟩ := hc.mem_answers hy ho
    exact ⟨b, hb, hid, hw.trans hk, ha⟩
  · cases hn

theorem Ledger.Balances.asking_eq (h : l.Balances p) {x y : Asking κ} {slot : Nat} (hx : x ∈ l.asked)
    (hy : y ∈ l.asked) (hxs : x.slot? = some slot) (hys : y.slot? = some slot) : x = y := by
  have hn : (l.asked.filterMap (·.slot?)).Pairwise (· ≠ ·) := List.nodup_range.sublist h.slots
  rw [List.pairwise_filterMap] at hn
  have hsymm : Std.Symm fun x y : Asking κ => ∀ i, x.slot? = some i → ∀ j, y.slot? = some j → i ≠ j :=
    ⟨fun x y hr j hj i hi => (hr i hi j hj).symm⟩
  by_contra hne
  exact hn.forall hx hy hne slot hxs slot hys rfl

/-- What a future returns is an answer to its own request. -/
theorem Ledger.Balances.of_poll (h : l.Balances p) {x : Asking κ} {slot : Nat} (hx : x ∈ l.asked)
    (hw : x.waiter = .future slot) {a : Bytes} (ha : p.poll ⟨x.id, slot⟩ = some (.ok a)) :
    ∃ b ∈ l.answers, b.asking = x ∧ b.answer = a := by
  have hout : p.outcomes.get? slot = some (.ok a) := by
    unfold poll at ha
    split at ha
    · next outcome ho =>
      rw [ho, Option.some.inj ha]
    · split at ha <;> cases ha
  obtain ⟨told, ht, hc⟩ := h.tells
  obtain ⟨y, hy, hya⟩ := Option.map_eq_some_iff.mp ((ht.outcomes slot).symm.trans hout)
  have hfills := List.find?_some hy
  obtain ⟨b, hb, -, hcb, hba⟩ := hc.mem_answers (List.mem_of_find?_eq_some hy) hya
  have hslot : b.asking.slot? = some slot := by
    rw [Asking.slot?, Answered.asking, hcb]
    unfold Told.fills at hfills
    cases hyw : y.waiter with
    | callback k => rw [hyw] at hfills; cases hfills
    | future i =>
      rw [hyw] at hfills
      rw [of_decide_eq_true hfills]
  refine ⟨b, hb, h.asking_eq (h.answers b hb) hx hslot ?_, hba⟩
  rw [Asking.slot?, hw]

variable {ω : Type} {c : Carrier ω} {t t' : Task κ} {w w' : ω} {d : Task.Deed κ}

/-- Whatever a producer does by itself, it tells nobody an answer. -/
theorem Task.Acts.tells (h : t.Acts c w d t' w') :
    ∃ now requests, t.producer.Tells (expired now requests) d.notices t'.producer := by
  cases h with
  | send | request | ask | forget => exact ⟨0, [], .of_eq _ rfl⟩
  | sweep now => exact ⟨now, _, t.producer.tells_sweep now⟩
  | tick now =>
    unfold Task.tick
    cases t.stage with
    | finished => exact ⟨0, [], .of_eq _ rfl⟩
    | serving | draining => exact ⟨now, _, t.producer.tells_sweep now⟩

theorem Task.Acts.slots (h : t.Acts c w d t' w') :
    (List.range t.producer.futures ++ d.asked.filterMap (·.slot?)).Sublist (List.range t'.producer.futures) := by
  have same : ∀ {n : Nat} {slots : List Nat}, n = t.producer.futures → slots = [] →
      (List.range t.producer.futures ++ slots).Sublist (List.range n) := by
    rintro n slots rfl rfl
    simp
  cases h with
  | send | forget => exact same rfl rfl
  | request data hd timeout callback now =>
    refine same rfl ?_
    simp [Asking.slot?]
  | ask data hd now =>
    have hf : (t.producer.request c data now w).2.1.futures = t.producer.futures + 1 := rfl
    rw [hf, List.range_succ]
    refine List.Sublist.append_left ?_ _
    cases hs : (c.send w t.producer.broker data).1 with
    | ok id => simp [Producer.request, sendWith, hs, Except.map, Except.toOption, Asking.slot?]
    | error f => simp [Producer.request, sendWith, hs, Except.map, Except.toOption]
  | sweep now => exact same (t.producer.keeps_sweep now).futures rfl
  | tick now => exact same (keeps_tick t now).futures rfl

theorem Ledger.Balances.acts (h : l.Balances t.producer) (ha : t.Acts c w d t' w') :
    Ledger.Balances { l with asked := l.asked ++ d.asked, notices := l.notices ++ d.notices } t'.producer := by
  obtain ⟨now, requests, ht⟩ := ha.tells
  have hl := h.tells_append ht (covers_expired now requests)
  rw [List.append_nil] at hl
  refine ⟨hl, fun a hm => List.mem_append_left _ (h.answers a hm), fun {k r} hr => ?_, ?_⟩
  · rcases ha.asked.2.pending hr with hr | ⟨-, hr⟩
    · exact List.mem_append_left _ (h.pending hr)
    · exact List.mem_append_right _ hr
  · rw [List.filterMap_append]
    exact (h.slots.append_right _).trans ha.slots

end

end Producer

end Switchboard
