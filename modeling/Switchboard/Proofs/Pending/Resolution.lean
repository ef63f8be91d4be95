import Switchboard.Proofs.Pending.Runs

/-!
# Every request is resolved once

A request waits in the tracker until a call takes it out: an answer, in single mode; a sweep, which
makes its callback due; a removal, or another request under its id. What is due is started once, and
what is neither waiting nor due is never started again (`Steps.waits`, `Steps.of_due`, `Steps.settled`).
Over a run this gives the whole life of a request (`Run.resolves_once`).
-/

namespace Switchboard.Nest

variable {κ : Type}

/-- What the callback of the `number`th request is told in the turns. -/
def starts (number : Nat) (turns : List (Turn κ)) : List (Start κ) :=
  (turns.filterMap (·.started)).filter (·.request.number = number)

def Waits (n : Nest κ) (id : UInt32) (r : Numbered κ) : Prop := (id, r) ∈ n.tracker.waiting

instance [DecidableEq κ] (n : Nest κ) (id : UInt32) (r : Numbered κ) : Decidable (n.Waits id r) :=
  inferInstanceAs (Decidable ((id, r) ∈ n.tracker.waiting))

def Due (n : Nest κ) (id : UInt32) (r : Numbered κ) : Prop := (id, r) ∈ n.due

/-- The request was taken, and is neither waiting nor due. -/
def Settled (n : Nest κ) (r : Numbered κ) : Prop :=
  r.number < n.taken ∧ ∀ e ∈ n.unsettled, e.2.number ≠ r.number

def Turn.Leaves (t : Turn κ) (id : UInt32) (r : Numbered κ) : Prop :=
  t.before.Waits id r ∧ ¬ t.after.Waits id r

theorem starts_append (number : Nat) (past future : List (Turn κ)) :
    starts number (past ++ future) = starts number past ++ starts number future := by
  simp [starts, List.filterMap_append]

theorem starts_of_none {number : Nat} {t : Turn κ} (h : ∀ st, t.started = some st → st.request.number ≠ number) :
    starts number [t] = [] := by
  unfold starts
  cases hs : t.started with
  | none => simp [hs]
  | some st => simp [hs, h st hs]

theorem starts_of_some {t : Turn κ} {st : Start κ} (h : t.started = some st) :
    starts st.request.number [t] = [st] := by
  simp [starts, h]

/-! ## Where a request can be -/

section
variable {n n' : Nest κ} {act : Act κ} {s : Option (Start κ)} {st : Start κ} {id : UInt32} {r : Numbered κ}

theorem Sound.entry_eq (hn : n.Sound) {e e' : UInt32 × Numbered κ} (he : e ∈ n.unsettled) (he' : e' ∈ n.unsettled)
    (h : e.2.number = e'.2.number) : e = e' := List.inj_on_of_nodup_map hn.distinct he he' h

theorem Sound.not_due (hn : n.Sound) (hw : n.Waits id r) : ¬ n.Due id r := by
  intro hd
  have hx := hn.distinct
  rw [unsettled, List.map_append, List.nodup_append] at hx
  exact hx.2.2 _ (List.mem_map_of_mem hw) _ (List.mem_map_of_mem hd) rfl

theorem Sound.erased (hn : n.Sound) (hw : n.Waits id r) {e : UInt32 × Numbered κ}
    (he : e ∈ n.tracker.waiting.filter (·.1 ≠ id) ++ n.due) : e.2.number ≠ r.number := by
  intro hr
  have hm : e ∈ n.unsettled := by
    rcases List.mem_append.mp he with he | he
    · exact List.mem_append_left _ (List.mem_filter.mp he).1
    · exact List.mem_append_right _ he
  obtain rfl := hn.entry_eq hm (List.mem_append_left _ hw) hr
  rcases List.mem_append.mp he with he | he
  · simp at he
  · exact hn.not_due hw he

theorem Steps.started (h : n.Steps act (some st) n') :
    (∃ data, act = .answer st.id data ∧ st.outcome = .ok data ∧ n.Waits st.id st.request) ∨
    (st.outcome = .error (.timeout st.id) ∧ (st.entry :: n'.unsettled).Perm n.unsettled ∧
      ((∃ now, act = .sweep now ∧ st.entry ∈ (n.tracker.sweep now).1) ∨
        (act = .finish ∧ n.Due st.id st.request))) := by
  generalize hs : some st = s at h
  cases h with
  | answered id data h =>
    obtain rfl := Option.some.inj hs
    exact .inl ⟨data, rfl, rfl, (Tracker.answer_eq_ok h).1⟩
  | sweep now h =>
    obtain ⟨he, ho⟩ := proceed_started hs.symm
    have hm := Steps.moves (.sweep now h) (.inl ⟨now, rfl⟩)
    rw [← hs] at hm
    exact .inr ⟨ho, hm, .inl ⟨now, rfl, h.mem_iff.mp he⟩⟩
  | @finish due outer h =>
    obtain ⟨he, ho⟩ := proceed_started hs.symm
    have hm := Steps.moves (.finish h) (.inr rfl)
    rw [← hs] at hm
    refine .inr ⟨ho, hm, .inr ⟨rfl, ?_⟩⟩
    rw [Due, Nest.due, h, List.flatten_cons]
    exact List.mem_append_left _ he
  | add | track | unanswered | remove => cases hs

theorem Steps.mem_unsettled (h : n.Steps act (some st) n') : st.entry ∈ n.unsettled := by
  rcases h.started with ⟨-, -, -, hw⟩ | ⟨-, hp, -⟩
  · exact List.mem_append_left _ hw
  · exact hp.mem_iff.mp (List.mem_cons_self ..)

theorem Steps.taken_mono (h : n.Steps act s n') : n.taken ≤ n'.taken := Nat.le_of_add_right_le h.taken_le

theorem Steps.settled_of_perm (h : n.Steps act s n') (hn : n.Sound)
    (hp : (st.entry :: n'.unsettled).Perm n.unsettled) : n'.Settled st.request := by
  refine ⟨Nat.lt_of_lt_of_le (hn.taken _ (hp.mem_iff.mp (List.mem_cons_self ..))) h.taken_mono, fun e he hr => ?_⟩
  have hx := (hp.map (·.2.number)).nodup_iff.mpr hn.distinct
  rw [List.map_cons, List.nodup_cons] at hx
  exact hx.1 (hr ▸ List.mem_map_of_mem he)

theorem Steps.settled (h : n.Steps act s n') (hr : n.Settled r) :
    n'.Settled r ∧ ∀ st, s = some st → st.request.number ≠ r.number := by
  refine ⟨⟨Nat.lt_of_lt_of_le hr.1 h.taken_mono, fun e he => ?_⟩, ?_⟩
  · rcases List.mem_append.mp (h.unsettled_subperm.subset he) with he | he
    · rw [takes?_eq_some (Option.mem_toList.mp he)]
      exact Nat.ne_of_gt hr.1
    · exact hr.2 e he
  · rintro st rfl
    exact hr.2 _ h.mem_unsettled

theorem Steps.due_of_due (h : n.Steps act s n') {e : UInt32 × Numbered κ} (he : e ∈ n.due) :
    e ∈ n'.due ∨ ∃ st, s = some st ∧ st.entry = e := by
  have moved : ∀ {n : Nest κ} {due : List (UInt32 × Numbered κ)}, e ∈ due ++ n.due →
      e ∈ (n.proceed due).2.due ∨ ∃ st, (n.proceed due).1 = some st ∧ st.entry = e := by
    intro n due hm
    rw [← proceed_due, List.mem_append, List.mem_map] at hm
    rcases hm with ⟨st, hst, he⟩ | hm
    · exact .inr ⟨st, Option.mem_toList.mp hst, he⟩
    · exact .inl hm
  cases h with
  | sweep now h => exact moved (List.mem_append_right _ he)
  | finish h =>
    rw [Nest.due, h, List.flatten_cons] at he
    exact moved he
  | add | track | answered | unanswered | remove => exact .inl he

theorem Steps.of_due (h : n.Steps act s n') (hn : n.Sound) (hd : n.Due id r) :
    (s = some ⟨r, id, .error (.timeout id)⟩ ∧ n'.Settled r) ∨
    (n'.Due id r ∧ ∀ st, s = some st → st.request.number ≠ r.number) := by
  cases s with
  | none =>
    rcases h.due_of_due hd with hd' | ⟨st, hs, -⟩
    · exact .inr ⟨hd', fun st hs => by cases hs⟩
    · cases hs
  | some st =>
    by_cases hr : st.request.number = r.number
    · have he : st.entry = (id, r) := hn.entry_eq h.mem_unsettled (List.mem_append_right _ hd) hr
      obtain ⟨rfl, rfl⟩ := Prod.mk.inj he
      rcases h.started with ⟨-, -, -, hw⟩ | ⟨ho, hp, -⟩
      · exact absurd hd (hn.not_due hw)
      · refine .inl ⟨?_, h.settled_of_perm hn hp⟩
        rw [← ho]
    · rcases h.due_of_due hd with hd' | ⟨st', hs, he⟩
      · refine .inr ⟨hd', fun st' hs => ?_⟩
        obtain rfl := Option.some.inj hs
        exact hr
      · obtain rfl := Option.some.inj hs
        exact absurd (congrArg (·.2.number) he) hr

/-! ## What becomes of a request that waits -/

/-- What a step does with a request that waits. -/
inductive Fate (n : Nest κ) (act : Act κ) (s : Option (Start κ)) (n' : Nest κ) (id : UInt32) (r : Numbered κ) :
    Prop
  | stays (hw : n'.Waits id r) (hs : ∀ st, s = some st → st.request.number = r.number →
      n.tracker.mode = .multiple ∧ ∃ data, st = ⟨r, id, .ok data⟩)
  | answered {data : Bytes} (ha : act = .answer id data) (hm : n.tracker.mode = .single)
      (hs : s = some ⟨r, id, .ok data⟩) (hr : n'.Settled r)
  | expired {now : Nat} (ha : act = .sweep now) (hs : s = some ⟨r, id, .error (.timeout id)⟩) (hr : n'.Settled r)
  | collected {now : Nat} (ha : act = .sweep now) (hs : ∀ st, s = some st → st.request.number ≠ r.number)
      (hd : n'.Due id r)
  | dropped (ha : (∃ i, act = .remove i) ∨ (n.takes? act).isSome) (hs : s = none) (hr : n'.Settled r)

/-- Of a request whose id is erased nothing is left but what the step takes. -/
theorem Sound.settled_of_erased (hn : n.Sound) (hw : n.Waits id r) (ht : n.taken ≤ n'.taken)
    (hu : ∀ e ∈ n'.unsettled, e ∈ n.tracker.waiting.filter (·.1 ≠ id) ++ n.due ∨ e.2.number = n.taken) :
    n'.Settled r := by
  have hr := hn.taken _ (List.mem_append_left _ hw)
  refine ⟨Nat.lt_of_lt_of_le hr ht, fun e he => ?_⟩
  rcases hu e he with he | he
  · exact hn.erased hw he
  · rw [he]
    exact Nat.ne_of_gt hr

theorem Sound.fate_of_added (hn : n.Sound) (hw : n.Waits id r) {i : UInt32} {q : PendingRequest (Numbered κ)}
    (ha : n.takes? act = some (i, q.callback)) :
    Fate n act none ⟨n.tracker.add i q, n.taken + 1, n.running⟩ id r := by
  by_cases hi : i = id
  · subst hi
    refine .dropped (.inr (by rw [ha]; rfl)) rfl (hn.settled_of_erased hw (Nat.le_succ _) fun e he => ?_)
    rw [unsettled, Tracker.waiting_add, List.cons_append] at he
    rcases List.mem_cons.mp he with rfl | he
    · exact .inr (takes?_eq_some ha)
    · exact .inl he
  · refine .stays ?_ (fun st hs => by cases hs)
    rw [Waits, Tracker.waiting_add]
    exact List.mem_cons_of_mem _ (List.mem_filter.mpr ⟨hw, by simpa using Ne.symm hi⟩)

theorem Sound.fate_of_removed (hn : n.Sound) (hw : n.Waits id r) (i : UInt32) :
    Fate n (.remove i) none { n with tracker := (n.tracker.remove i).2 } id r := by
  by_cases hi : i = id
  · subst hi
    refine .dropped (.inl ⟨i, rfl⟩) rfl (hn.settled_of_erased hw (Nat.le_refl _) fun e he => .inl ?_)
    rwa [unsettled, Tracker.waiting_remove] at he
  · refine .stays ?_ (fun st hs => by cases hs)
    rw [Waits, Tracker.waiting_remove]
    exact List.mem_filter.mpr ⟨hw, by simpa using Ne.symm hi⟩

theorem Sound.fate_of_answered (hn : n.Sound) (hw : n.Waits id r) {i : UInt32} {r' : Numbered κ} (data : Bytes)
    (h : (n.tracker.answer i).1 = .ok r') :
    Fate n (.answer i data) (some ⟨r', i, .ok data⟩) ⟨(n.tracker.answer i).2, n.taken, [] :: n.running⟩ id r := by
  obtain ⟨hw', ha⟩ := Tracker.answer_eq_ok h
  by_cases hi : i = id
  · subst hi
    obtain rfl := Tracker.callback_eq hw hw'
    rw [ha]
    cases hm : n.tracker.mode with
    | single =>
      refine .answered rfl hm rfl (hn.settled_of_erased hw (Nat.le_refl _) fun e he => .inl ?_)
      rwa [unsettled, Tracker.waiting_remove] at he
    | multiple =>
      refine .stays hw fun st hs _ => ⟨hm, data, ?_⟩
      exact (Option.some.inj hs).symm
  · refine .stays ?_ fun st hs hr => ?_
    · rw [Waits, ha]
      cases n.tracker.mode with
      | single =>
        dsimp only
        rw [Tracker.waiting_remove]
        exact List.mem_filter.mpr ⟨hw, by simpa using Ne.symm hi⟩
      | multiple => exact hw
    · -- the callback that is started belongs to another id, so to another request
      obtain rfl := Option.some.inj hs
      have he := hn.entry_eq (List.mem_append_left _ hw') (List.mem_append_left _ hw) hr
      exact absurd (Prod.mk.inj he).1 hi

theorem Steps.fate (h : n.Steps act s n') (hn : n.Sound) (hw : n.Waits id r) : Fate n act s n' id r := by
  -- what a sweep starts, at once or later, is settled, and so is another request than what is not
  have other : (∀ i data, act ≠ .answer i data) → (id, r) ∈ n'.unsettled →
      ∀ st, s = some st → st.request.number ≠ r.number := by
    rintro ha hu st rfl hr
    rcases h.started with ⟨data, hd, -⟩ | ⟨-, hp, -⟩
    · exact ha _ _ hd
    · exact (h.settled_of_perm hn hp).2 _ hu hr.symm
  have stays : (∀ i data, act ≠ .answer i data) → n'.Waits id r → Fate n act s n' id r := fun ha hw' =>
    .stays hw' fun st hs hr => absurd hr (other ha (List.mem_append_left _ hw') st hs)
  cases h with
  | add i payload deadline callback => exact hn.fate_of_added hw rfl
  | track payload deadline callback sent =>
    cases sent with
    | ok i => exact hn.fate_of_added hw rfl
    | error f => exact .stays hw (fun st hs => by cases hs)
  | answered i data h => exact hn.fate_of_answered hw data h
  | unanswered data h => exact .stays hw (fun st hs => by cases hs)
  | remove i => exact hn.fate_of_removed hw i
  | @sweep now due h =>
    have hm := (n.tracker.waiting_sweep now).mem_iff.mpr hw
    rcases List.mem_append.mp hm with hm | hm
    · have hd := List.mem_append_left (Nest.due ⟨(n.tracker.sweep now).2, n.taken, n.running⟩) (h.mem_iff.mpr hm)
      rw [← proceed_due, List.mem_append, List.mem_map] at hd
      rcases hd with ⟨st, hst, he⟩ | hd
      · obtain ⟨rfl, rfl⟩ := Prod.mk.inj he
        have hs := Option.mem_toList.mp hst
        have hp := Steps.moves (.sweep now h) (.inl ⟨now, rfl⟩)
        rw [hs] at hp
        refine .expired rfl ?_ ((Steps.sweep now h).settled_of_perm hn hp)
        rw [hs, ← (proceed_started hs).2]
      · exact .collected rfl (other (by simp) (List.mem_append_right _ hd)) hd
    · refine stays (by simp) ?_
      rwa [Waits, proceed_tracker]
  | finish h =>
    refine stays (by simp) ?_
    rwa [Waits, proceed_tracker]

theorem Steps.waits_of_takes (h : n.Steps act s n') (ha : n.takes? act = some (id, r)) :
    n'.Waits id r ∧ s = none := by
  cases h with
  | add i payload deadline callback =>
    cases ha
    exact ⟨List.mem_cons_self .., rfl⟩
  | track payload deadline callback sent =>
    cases sent with
    | ok i =>
      cases ha
      exact ⟨List.mem_cons_self .., rfl⟩
    | error f => cases ha
  | answered | unanswered | remove | sweep | finish => cases ha

theorem Steps.waits_of_after (h : n.Steps act s n') (hn : n.Sound) (hr : r.number < n.taken)
    (hw : n'.Waits id r) : n.Waits id r := by
  rcases List.mem_append.mp (h.unsettled_subperm.subset (List.mem_append_left _ hw)) with he | he
  · rw [takes?_eq_some (Option.mem_toList.mp he)] at hr
    exact absurd hr (Nat.lt_irrefl _)
  · rcases List.mem_append.mp he with hw' | hd
    · exact hw'
    · rcases h.of_due hn hd with ⟨-, hs⟩ | ⟨hd', -⟩
      · exact absurd rfl (hs.2 _ (List.mem_append_left _ hw))
      · exact absurd hd' ((h.sound hn).not_due hw)

theorem Settled.not_waits (h : n.Settled r) : ¬ n.Waits id r := fun hw => h.2 _ (List.mem_append_left _ hw) rfl

theorem Settled.not_due (h : n.Settled r) : ¬ n.Due id r := fun hd => h.2 _ (List.mem_append_right _ hd) rfl

/-! ## What becomes of a request in a run -/

variable {turns : List (Turn κ)}

theorem Run.taken_mono (h : Run n turns n') : n.taken ≤ n'.taken := by
  induction h with
  | nil => exact Nat.le_refl _
  | snoc h ht ih => exact Nat.le_trans ih ht.taken_mono

theorem Run.starts_of_le (h : Run n turns n') (hn : n.Sound) {number : Nat} (hr : n'.taken ≤ number) :
    starts number turns = [] := by
  induction h with
  | nil => rfl
  | @snoc turns t h ht ih =>
    have hle := Nat.le_trans ht.taken_mono hr
    rw [starts_append, ih hle, List.nil_append]
    -- whatever is started has been taken, so it has a smaller number
    refine starts_of_none fun st hs => ?_
    rw [hs] at ht
    exact Nat.ne_of_lt (Nat.lt_of_lt_of_le ((h.sound hn).taken _ ht.mem_unsettled) hle)

theorem Run.starts_of_settled (h : Run n turns n') (hr : n.Settled r) :
    n'.Settled r ∧ starts r.number turns = [] := by
  induction h with
  | nil => exact ⟨hr, rfl⟩
  | snoc h ht ih =>
    obtain ⟨hr', hs⟩ := ht.settled ih.1
    exact ⟨hr', by rw [starts_append, ih.2, starts_of_none hs, List.nil_append]⟩

theorem Run.starts_of_due (h : Run n turns n') (hn : n.Sound) (hd : n.Due id r) :
    (n'.Due id r ∧ starts r.number turns = []) ∨
    (n'.Settled r ∧ starts r.number turns = [⟨r, id, .error (.timeout id)⟩]) := by
  induction h with
  | nil => exact .inl ⟨hd, rfl⟩
  | snoc h ht ih =>
    rw [starts_append]
    rcases ih with ⟨hd', he⟩ | ⟨hr, he⟩
    · rw [he, List.nil_append]
      rcases ht.of_due (h.sound hn) hd' with ⟨hs, hr⟩ | ⟨hd', hs⟩
      · exact .inr ⟨hr, starts_of_some hs⟩
      · exact .inl ⟨hd', starts_of_none hs⟩
    · obtain ⟨hr', hs⟩ := ht.settled hr
      exact .inr ⟨hr', by rw [he, starts_of_none hs, List.append_nil]⟩

/-- While a request waits its callback is told answers, and none in single mode. -/
theorem Run.starts_of_waits (h : Run n turns n') (hn : n.Sound) (hw : n.Waits id r) (hw' : n'.Waits id r) :
    ∃ answers : List Bytes, (n.tracker.mode = .single → answers = []) ∧
      starts r.number turns = answers.map fun a => ⟨r, id, .ok a⟩ := by
  induction h with
  | nil => exact ⟨[], fun _ => rfl, rfl⟩
  | @snoc turns t h ht ih =>
    have hn' := h.sound hn
    have hr := Nat.lt_of_lt_of_le (hn.taken _ (List.mem_append_left _ hw)) h.taken_mono
    have hb := ht.waits_of_after hn' hr hw'
    obtain ⟨answers, hm, he⟩ := ih hb
    rw [starts_append, he]
    cases ht.fate hn' hb with
    | stays _ hs =>
      by_cases hst : ∀ st, t.started = some st → st.request.number ≠ r.number
      · exact ⟨answers, hm, by rw [starts_of_none hst, List.append_nil]⟩
      · push Not at hst
        obtain ⟨st, hst, hr⟩ := hst
        obtain ⟨hmode, data, rfl⟩ := hs st hst hr
        refine ⟨answers ++ [data], fun hsingle => ?_, ?_⟩
        · rw [h.mode_eq, hsingle] at hmode
          cases hmode
        · rw [starts_of_some hst, List.map_append]
          rfl
    | answered _ _ _ hr => exact absurd hw' hr.not_waits
    | expired _ _ hr => exact absurd hw' hr.not_waits
    | collected _ _ hd => exact absurd hd ((ht.sound hn').not_due hw')
    | dropped _ _ hr => exact absurd hw' hr.not_waits

/-- What a callback is told from the turn on that takes its request out of the tracker. -/
inductive Leaving (mode : AnswerMode) (u : Turn κ) (n : Nest κ) (id : UInt32) (r : Numbered κ) :
    List (Start κ) → Prop
  | answered {data : Bytes} (ha : u.act = .answer id data) (hm : mode = .single) :
      Leaving mode u n id r [⟨r, id, .ok data⟩]
  | expired {now : Nat} (ha : u.act = .sweep now) : Leaving mode u n id r [⟨r, id, .error (.timeout id)⟩]
  | due {now : Nat} (ha : u.act = .sweep now) (hd : n.Due id r) : Leaving mode u n id r []
  | dropped (ha : (∃ i, u.act = .remove i) ∨ (u.before.takes? u.act).isSome) : Leaving mode u n id r []

theorem Run.leaving {u : Turn κ} (h : Run u.after turns n') (hu : u.before.Steps u.act u.started u.after)
    (hn : u.before.Sound) (hl : u.Leaves id r) :
    Leaving u.before.tracker.mode u n' id r (starts r.number (u :: turns)) := by
  have hsplit : starts r.number (u :: turns) = starts r.number [u] ++ starts r.number turns := starts_append _ [u] _
  rw [hsplit]
  cases hu.fate hn hl.1 with
  | stays hw => exact absurd hw hl.2
  | answered ha hm hs hr =>
    have hst : starts r.number [u] = [⟨r, id, .ok _⟩] := starts_of_some hs
    rw [hst, (h.starts_of_settled hr).2, List.append_nil]
    exact .answered ha hm
  | expired ha hs hr =>
    have hst : starts r.number [u] = [⟨r, id, .error (.timeout id)⟩] := starts_of_some hs
    rw [hst, (h.starts_of_settled hr).2, List.append_nil]
    exact .expired ha
  | collected ha hs hd =>
    rw [starts_of_none hs, List.nil_append]
    rcases h.starts_of_due (hu.sound hn) hd with ⟨hd', he⟩ | ⟨-, he⟩
    · rw [he]
      exact .due ha hd'
    · rw [he]
      exact .expired ha
  | dropped ha hs hr =>
    rw [starts_of_none (by rw [hs]; exact fun st h => by cases h), (h.starts_of_settled hr).2, List.nil_append]
    exact .dropped ha

theorem Run.exists_leaves (h : Run n turns n') (hw : n.Waits id r) (hw' : ¬ n'.Waits id r) :
    ∃ past u future, turns = past ++ u :: future ∧ u.Leaves id r := by
  induction h with
  | nil => exact absurd hw hw'
  | @snoc turns t h ht ih =>
    by_cases hb : t.before.Waits id r
    · exact ⟨turns, t, [], rfl, hb, hw'⟩
    · obtain ⟨past, u, future, rfl, hl⟩ := ih hb
      exact ⟨past, u, future ++ [t], by simp, hl⟩

/-- Up to the turn that takes a request nothing of it is started, and behind that turn it waits. -/
theorem Run.taken {mode : AnswerMode} {past future : List (Turn κ)} {t : Turn κ}
    (h : Run (Nest.start mode) (past ++ t :: future) n) (ht : t.before.takes? t.act = some (id, r)) :
    Run t.after future n ∧ t.after.Sound ∧ t.after.Waits id r ∧ t.after.tracker.mode = mode ∧
      starts r.number (past ++ t :: future) = starts r.number future := by
  obtain ⟨hp, hstep, hf⟩ := h.split
  have hn := hp.sound (sound_start mode)
  obtain ⟨hw, hs⟩ := hstep.waits_of_takes ht
  refine ⟨hf, hstep.sound hn, hw, hstep.mode_eq.trans hp.mode_eq, ?_⟩
  have hnone : starts r.number [t] = [] := starts_of_none (by rw [hs]; exact fun st h => by cases h)
  have hnum := takes?_eq_some ht
  rw [starts_append, hp.starts_of_le (sound_start mode) (Nat.le_of_eq hnum.symm), List.nil_append]
  exact (starts_append _ [t] future).trans (by rw [hnone, List.nil_append])

theorem Steps.mem_due (h : n.Steps act s n') {e : UInt32 × Numbered κ} (he : e ∈ n'.due) :
    e ∈ n.due ∨ ∃ now, act = .sweep now ∧ e ∈ (n.tracker.sweep now).1 := by
  have moved : ∀ {n : Nest κ} {due : List (UInt32 × Numbered κ)}, e ∈ (n.proceed due).2.due → e ∈ due ++ n.due := by
    intro n due hm
    rw [← proceed_due]
    exact List.mem_append_right _ hm
  cases h with
  | sweep now h =>
    rcases List.mem_append.mp (moved he) with he | he
    · exact .inr ⟨now, rfl, h.mem_iff.mp he⟩
    · exact .inl he
  | finish h =>
    have hm := moved he
    left
    rw [Nest.due, h, List.flatten_cons]
    exact hm
  | add | track | answered | unanswered | remove => exact .inl he

theorem Run.collected {mode : AnswerMode} (h : Run (Nest.start mode) turns n) {e : UInt32 × Numbered κ}
    (he : e ∈ n.due) : ∃ u ∈ turns, ∃ now, u.act = .sweep now ∧ e ∈ (u.before.tracker.sweep now).1 := by
  induction h with
  | nil => cases he
  | @snoc turns t h ht ih =>
    rcases ht.mem_due he with he | ⟨now, ha, he⟩
    · obtain ⟨u, hu, hx⟩ := ih he
      exact ⟨u, List.mem_append_left _ hu, hx⟩
    · exact ⟨t, List.mem_append_right _ (List.mem_singleton_self t), now, ha, he⟩

end

end Switchboard.Nest
