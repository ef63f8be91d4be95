import Mathlib.Data.List.Nodup
import Mathlib.Data.List.Perm.Subperm
import Switchboard.Pending.Callbacks
import Switchboard.Proofs.History

/-!
# Runs of a tracker whose callbacks use it

A callback runs inside the call that started it, and may itself make any calls on the tracker before it
ends. A nest is a tracker with the callbacks that are running, one inside the other; a sweep that has
more to start goes on when the one it started ends. Requests are numbered as they are taken, so that
those under one id are told apart. What is unsettled is what the tracker still holds and what a sweep
has yet to start: each step adds at most the request it takes, and no number comes twice.
-/

namespace Switchboard

/-! ## What a tracker holds -/

namespace Tracker

variable {κ : Type} (t : Tracker κ) (id : UInt32)

/-- The requests that have not been completed, as their ids and callbacks. -/
def waiting : List (UInt32 × κ) := t.pending.entries.map fun e => (e.1, e.2.callback)

theorem waiting_remove : (t.remove id).2.waiting = t.waiting.filter (·.1 ≠ id) := by
  simp [waiting, remove, Dictionary.erase, Dictionary.filter, List.filter_map, Function.comp_def]

theorem waiting_add (r : PendingRequest κ) :
    (t.add id r).waiting = (id, r.callback) :: t.waiting.filter (·.1 ≠ id) := by
  rw [← waiting_remove]
  rfl

theorem waiting_sweep (now : Nat) : ((t.sweep now).1 ++ (t.sweep now).2.waiting).Perm t.waiting := by
  unfold waiting sweep
  rw [← List.map_append]
  exact (List.filter_append_perm _ _).map _

theorem get?_sweep (now : Nat) (id : UInt32) :
    (t.sweep now).2.pending.get? id = (t.pending.get? id).filter fun r => !(r.deadline ≤ now) :=
  Dictionary.get?_filter ..

/-- A sweep takes the request under an id if its deadline has come. -/
theorem due_of_id (now : Nat) (id : UInt32) : (t.sweep now).1.filter (·.1 = id) =
    (((t.pending.get? id).filter fun r => r.deadline ≤ now).map fun r => (id, r.callback)).toList := by
  have h := Dictionary.filter_key (t.pending.filter fun _ r => r.deadline ≤ now) id
  rw [Dictionary.get?_filter] at h
  simp only [sweep, List.filter_map]
  refine (congrArg (List.map _) h).trans ?_
  cases (t.pending.get? id).filter fun r => r.deadline ≤ now with
  | none => rfl
  | some r => rfl

theorem mem_sweep_iff (now : Nat) (id : UInt32) (k : κ) : (id, k) ∈ (t.sweep now).1 ↔
    ∃ r, t.pending.get? id = some r ∧ r.deadline ≤ now ∧ r.callback = k := by
  have hm := fun r => (t.pending.filter fun _ r => r.deadline ≤ now).mem_entries_iff id r
  simp only [Dictionary.get?_filter, Option.filter_eq_some_iff, decide_eq_true_eq] at hm
  constructor
  · intro h
    obtain ⟨e, he, hk⟩ := List.mem_map.mp h
    obtain ⟨rfl, rfl⟩ := Prod.mk.inj hk
    obtain ⟨hg, hd⟩ := (hm e.2).mp he
    exact ⟨e.2, hg, hd, rfl⟩
  · rintro ⟨r, hg, hd, rfl⟩
    exact List.mem_map.mpr ⟨(id, r), (hm r).mpr ⟨hg, hd⟩, rfl⟩

theorem get?_addSent (r : PendingRequest κ) (x : Except Failure UInt32) (id : UInt32) :
    (t.addSent r x).pending.get? id = if x = .ok id then some r else t.pending.get? id := by
  cases x with
  | error f =>
    rw [if_neg (by simp)]
    rfl
  | ok id' =>
    rw [addSent, add, Dictionary.get?_insert]
    simp [eq_comm]

theorem get?_answer_of_ne {id id' : UInt32} (h : id' ≠ id) :
    (t.answer id).2.pending.get? id' = t.pending.get? id' := by
  unfold answer
  split
  · rfl
  · cases t.mode with
    | single =>
      dsimp only
      rw [Dictionary.get?_erase, if_neg h]
    | multiple => rfl

theorem answer_mode : (t.answer id).2.mode = t.mode := by
  unfold answer
  split
  · rfl
  · cases hm : t.mode with
    | single => rfl
    | multiple => exact hm

variable {t id}

theorem mem_waiting_of_get? {r : PendingRequest κ} (h : t.pending.get? id = some r) :
    (id, r.callback) ∈ t.waiting :=
  List.mem_map.mpr ⟨(id, r), (t.pending.mem_entries_iff id r).mpr h, rfl⟩

theorem answer_eq_ok {k : κ} (h : (t.answer id).1 = .ok k) :
    (id, k) ∈ t.waiting ∧ (t.answer id).2 = match t.mode with
      | .single => (t.remove id).2
      | .multiple => t := by
  unfold answer at h ⊢
  cases hg : t.pending.get? id with
  | none => rw [hg] at h; cases h
  | some r =>
    rw [hg] at h
    obtain rfl := Except.ok.inj h
    exact ⟨mem_waiting_of_get? hg, rfl⟩

theorem callback_eq {k k' : κ} (h : (id, k) ∈ t.waiting) (h' : (id, k') ∈ t.waiting) : k = k' := by
  have hd : (t.waiting.map (·.1)).Nodup := by
    rw [waiting, List.map_map]
    exact List.pairwise_map.mpr t.pending.distinct
  exact (Prod.mk.inj (List.inj_on_of_nodup_map hd h h' rfl)).2

end Tracker

/-! ## Steps -/

/-- The callback of the request that was taken as the `number`th. -/
structure Numbered (κ : Type) where
  number : Nat
  callback : κ
deriving DecidableEq

structure Nest (κ : Type) where
  tracker : Tracker (Numbered κ)
  taken : Nat
  /-- For each callback that is running, the innermost first, those that its sweep has yet to start. -/
  running : List (List (UInt32 × Numbered κ))

namespace Nest

variable {κ : Type}

/-- A callback that is started: whose, and what it is told. -/
structure Start (κ : Type) where
  request : Numbered κ
  id : UInt32
  outcome : Outcome

def Start.entry (s : Start κ) : UInt32 × Numbered κ := (s.id, s.request)

inductive Act (κ : Type) where
  | add (id : UInt32) (payload : Bytes) (deadline : Nat) (callback : κ)
  | track (payload : Bytes) (deadline : Nat) (callback : κ) (sent : Except Failure UInt32)
  | answer (id : UInt32) (data : Bytes)
  | remove (id : UInt32)
  | sweep (now : Nat)
  /-- The innermost callback comes to its end. -/
  | finish

def start (mode : AnswerMode) : Nest κ := ⟨.empty mode, 0, []⟩

/-- The request that the tracker takes in a call, with its id. -/
def takes? (n : Nest κ) : Act κ → Option (UInt32 × Numbered κ)
  | .add id _ _ callback | .track _ _ callback (.ok id) => some (id, ⟨n.taken, callback⟩)
  | _ => none

/-- Start the first of the callbacks that a sweep has yet to start. -/
def proceed (n : Nest κ) : List (UInt32 × Numbered κ) → Option (Start κ) × Nest κ
  | [] => (none, n)
  | (id, r) :: due => (some ⟨r, id, .error (.timeout id)⟩, { n with running := due :: n.running })

/-- A sweep may start the callbacks of what it removed in any order. -/
inductive Steps (n : Nest κ) : Act κ → Option (Start κ) → Nest κ → Prop
  | add (id : UInt32) (payload : Bytes) (deadline : Nat) (callback : κ) :
      Steps n (.add id payload deadline callback) none
        { n with
          tracker := n.tracker.add id ⟨payload, ⟨n.taken, callback⟩, deadline⟩
          taken := n.taken + 1 }
  | track (payload : Bytes) (deadline : Nat) (callback : κ) (sent : Except Failure UInt32) :
      Steps n (.track payload deadline callback sent) none
        { n with
          tracker := n.tracker.addSent ⟨payload, ⟨n.taken, callback⟩, deadline⟩ sent
          taken := n.taken + 1 }
  | answered (id : UInt32) {r : Numbered κ} (data : Bytes) (h : (n.tracker.answer id).1 = .ok r) :
      Steps n (.answer id data) (some ⟨r, id, .ok data⟩)
        { n with tracker := (n.tracker.answer id).2, running := [] :: n.running }
  | unanswered {id : UInt32} {f : Failure} (data : Bytes) (h : (n.tracker.answer id).1 = .error f) :
      Steps n (.answer id data) none n
  | remove (id : UInt32) : Steps n (.remove id) none { n with tracker := (n.tracker.remove id).2 }
  | sweep (now : Nat) {due : List (UInt32 × Numbered κ)} (h : due.Perm (n.tracker.sweep now).1) :
      Steps n (.sweep now) ({ n with tracker := (n.tracker.sweep now).2 }.proceed due).1
        ({ n with tracker := (n.tracker.sweep now).2 }.proceed due).2
  | finish {due : List (UInt32 × Numbered κ)} {outer : List (List (UInt32 × Numbered κ))}
      (h : n.running = due :: outer) :
      Steps n .finish ({ n with running := outer }.proceed due).1 ({ n with running := outer }.proceed due).2

structure Turn (κ : Type) where
  before : Nest κ
  act : Act κ
  started : Option (Start κ)
  after : Nest κ

inductive Run (n : Nest κ) : List (Turn κ) → Nest κ → Prop
  | nil : Run n [] n
  | snoc {turns : List (Turn κ)} {t : Turn κ} (h : Run n turns t.before)
      (ht : t.before.Steps t.act t.started t.after) : Run n (turns ++ [t]) t.after

theorem Run.next {n n' n'' : Nest κ} {turns : List (Turn κ)} {act : Act κ} {s : Option (Start κ)}
    (h : Run n turns n') (hs : n'.Steps act s n'') : Run n (turns ++ [⟨n', act, s, n''⟩]) n'' :=
  .snoc (t := ⟨n', act, s, n''⟩) h hs

theorem Run.split {n n' : Nest κ} {past future : List (Turn κ)} {t : Turn κ}
    (h : Run n (past ++ t :: future) n') :
    Run n past t.before ∧ t.before.Steps t.act t.started t.after ∧ Run t.after future n' := by
  generalize hs : past ++ t :: future = turns at h
  induction h generalizing future with
  | nil => simp at hs
  | snoc h hu ih =>
    rcases snoc_split hs.symm with ⟨rfl, rfl⟩ | ⟨future', rfl, hp⟩
    · obtain rfl : future = [] := by simpa using hs
      exact ⟨h, hu, .nil⟩
    · obtain ⟨hp, ht, hf⟩ := ih hp.symm
      exact ⟨hp, ht, hf.snoc hu⟩

theorem Run.append {n n' n'' : Nest κ} {past future : List (Turn κ)} (h : Run n past n')
    (h' : Run n' future n'') : Run n (past ++ future) n'' := by
  induction h' with
  | nil =>
    rw [List.append_nil]
    exact h
  | snoc _ ht ih =>
    rw [← List.append_assoc]
    exact ih.snoc ht

/-! ## What is unsettled -/

def due (n : Nest κ) : List (UInt32 × Numbered κ) := n.running.flatten

def unsettled (n : Nest κ) : List (UInt32 × Numbered κ) := n.tracker.waiting ++ n.due

theorem proceed_due (n : Nest κ) : ∀ due : List (UInt32 × Numbered κ),
    (n.proceed due).1.toList.map Start.entry ++ (n.proceed due).2.due = due ++ n.due
  | [] => rfl
  | (_, _) :: _ => rfl

@[simp] theorem proceed_tracker (n : Nest κ) (due : List (UInt32 × Numbered κ)) :
    (n.proceed due).2.tracker = n.tracker := by
  cases due <;> rfl

@[simp] theorem proceed_taken (n : Nest κ) (due : List (UInt32 × Numbered κ)) :
    (n.proceed due).2.taken = n.taken := by
  cases due <;> rfl

theorem proceed_started {n : Nest κ} {due : List (UInt32 × Numbered κ)} {s : Start κ}
    (h : (n.proceed due).1 = some s) : s.entry ∈ due ∧ s.outcome = .error (.timeout s.id) := by
  cases due with
  | nil => cases h
  | cons e due =>
    obtain rfl := Option.some.inj h
    exact ⟨List.mem_cons_self .., rfl⟩

section
variable {n n' : Nest κ} {act : Act κ} {s : Option (Start κ)}

/-- Sweeping and going on only move what is unsettled, in the end to the callback that is started. -/
theorem Steps.moves (h : n.Steps act s n') (ha : (∃ now, act = .sweep now) ∨ act = .finish) :
    (s.toList.map Start.entry ++ n'.unsettled).Perm n.unsettled := by
  have moved : ∀ (n : Nest κ) (due : List (UInt32 × Numbered κ)),
      ((n.proceed due).1.toList.map Start.entry ++ (n.proceed due).2.unsettled).Perm (due ++ n.unsettled) := by
    intro n due
    rw [unsettled, unsettled, proceed_tracker]
    refine (List.perm_append_comm_assoc ..).trans ?_
    rw [proceed_due]
    exact List.perm_append_comm_assoc ..
  cases h with
  | @sweep now due h =>
    refine (moved _ due).trans ?_
    show (due ++ ((n.tracker.sweep now).2.waiting ++ n.due)).Perm (n.tracker.waiting ++ n.due)
    rw [← List.append_assoc]
    exact ((h.append_right _).trans (n.tracker.waiting_sweep now)).append_right _
  | @finish due outer h =>
    refine (moved _ due).trans ?_
    have hd : n.due = due ++ outer.flatten := by rw [Nest.due, h, List.flatten_cons]
    show (due ++ (n.tracker.waiting ++ outer.flatten)).Perm (n.tracker.waiting ++ n.due)
    rw [hd]
    exact List.perm_append_comm_assoc ..
  | add | track | answered | unanswered | remove =>
    rcases ha with ⟨now, ha⟩ | ha <;> cases ha

/-- A step takes at most the request that it adds to what is unsettled. -/
theorem Steps.unsettled_subperm (h : n.Steps act s n') :
    n'.unsettled.Subperm ((n.takes? act).toList ++ n.unsettled) := by
  have erased : ∀ id, (n.tracker.waiting.filter (·.1 ≠ id) ++ n.due).Sublist n.unsettled := fun id =>
    List.filter_sublist.append_right _
  have moved : ∀ {started : List (UInt32 × Numbered κ)} {n' : Nest κ},
      (started ++ n'.unsettled).Perm n.unsettled → n'.unsettled.Subperm n.unsettled :=
    fun hp => (List.sublist_append_right ..).subperm.trans hp.subperm
  cases h with
  | add id payload deadline callback =>
    rw [unsettled, Tracker.waiting_add]
    exact ((erased id).cons_cons _).subperm
  | track payload deadline callback sent =>
    cases sent with
    | ok id =>
      rw [unsettled, Tracker.addSent, Tracker.waiting_add]
      exact ((erased id).cons_cons _).subperm
    | error f => exact List.Subperm.refl _
  | @answered id r data h =>
    obtain ⟨-, ha⟩ := Tracker.answer_eq_ok h
    have hd : (Nest.due ⟨(n.tracker.answer id).2, n.taken, [] :: n.running⟩) = n.due := rfl
    rw [unsettled, hd, ha]
    cases n.tracker.mode with
    | single =>
      dsimp only
      rw [Tracker.waiting_remove]
      exact (erased id).subperm
    | multiple => exact List.Subperm.refl _
  | unanswered data h => exact List.Subperm.refl _
  | remove id =>
    rw [unsettled, Tracker.waiting_remove]
    exact (erased id).subperm
  | sweep now h => exact moved (Steps.moves (.sweep now h) (.inl ⟨now, rfl⟩))
  | finish h => exact moved (Steps.moves (.finish h) (.inr rfl))

theorem Steps.taken_le (h : n.Steps act s n') : n.taken + (n.takes? act).toList.length ≤ n'.taken := by
  cases h with
  | track payload deadline callback sent => cases sent <;> simp [takes?]
  | add | answered | unanswered | remove | sweep | finish => simp [takes?]

theorem Steps.mode_eq (h : n.Steps act s n') : n'.tracker.mode = n.tracker.mode := by
  cases h with
  | track payload deadline callback sent => cases sent <;> rfl
  | answered id data h => exact n.tracker.answer_mode _
  | sweep now h => rw [proceed_tracker]; rfl
  | finish h => rw [proceed_tracker]
  | add | unanswered | remove => rfl

theorem takes?_eq_some {id : UInt32} {r : Numbered κ} (h : n.takes? act = some (id, r)) :
    r.number = n.taken := by
  unfold takes? at h
  split at h
  all_goals
    cases h
    try rfl

/-! ## What every run keeps -/

structure Sound (n : Nest κ) : Prop where
  distinct : (n.unsettled.map (·.2.number)).Nodup
  taken : ∀ e ∈ n.unsettled, e.2.number < n.taken

theorem sound_start (mode : AnswerMode) : (start mode : Nest κ).Sound :=
  ⟨List.nodup_nil, fun e he => by cases he⟩

theorem Steps.sound (h : n.Steps act s n') (hn : n.Sound) : n'.Sound := by
  have hle := h.taken_le
  -- the request that is taken has a number of its own
  have hnew : (((n.takes? act).toList ++ n.unsettled).map (·.2.number)).Nodup ∧
      ∀ e ∈ (n.takes? act).toList ++ n.unsettled, e.2.number < n'.taken := by
    cases ha : n.takes? act with
    | none =>
      rw [ha] at hle
      exact ⟨hn.distinct, fun e he => Nat.lt_of_lt_of_le (hn.taken e he) hle⟩
    | some e =>
      have he := takes?_eq_some ha
      rw [ha] at hle
      refine ⟨List.nodup_cons.mpr ⟨fun hm => ?_, hn.distinct⟩, fun e' he' => ?_⟩
      · obtain ⟨e', he', hee⟩ := List.mem_map.mp hm
        exact absurd (hee.trans he) (Nat.ne_of_lt (hn.taken e' he'))
      · rcases List.mem_cons.mp he' with rfl | he'
        · rw [he]
          exact hle
        · exact Nat.lt_of_lt_of_le (hn.taken e' he') (Nat.le_of_succ_le hle)
  obtain ⟨kept, hp, hs⟩ := h.unsettled_subperm
  refine ⟨(hp.map _).nodup_iff.mp (hnew.1.sublist (hs.map _)), fun e he => ?_⟩
  exact hnew.2 e (hs.subset (hp.mem_iff.mpr he))

theorem Run.sound {turns : List (Turn κ)} (h : Run n turns n') (hn : n.Sound) : n'.Sound := by
  induction h with
  | nil => exact hn
  | snoc h ht ih => exact ht.sound ih

theorem Run.mode_eq {turns : List (Turn κ)} (h : Run n turns n') : n'.tracker.mode = n.tracker.mode := by
  induction h with
  | nil => rfl
  | snoc h ht ih => exact ht.mode_eq.trans ih

end

end Nest

end Switchboard
