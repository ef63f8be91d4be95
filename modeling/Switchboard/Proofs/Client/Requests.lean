import Switchboard.Proofs.Client.Runs
import Switchboard.Proofs.Pending.Runs

/-!
# What becomes of a request

A turn keeps a request that waits, answers it, forgets it or lets it expire (`Turn.Serves`), and says
nothing of one that is gone. So in a run in which no other request gets its id, a request waits, was
forgotten, or has had its last call (`Run.fate`).
-/

namespace Switchboard

namespace Tracker

variable {κ : Type} (t : Tracker (Waiter κ)) (now : Nat) (id : UInt32)

theorem expired_sweep : (Producer.expired now (t.sweep now).1).filter (·.id = id) =
    (((t.pending.get? id).filter fun r => r.deadline ≤ now).map fun r =>
      ⟨id, r.callback, .error (.timeout id), now⟩).toList := by
  have h := congrArg (Producer.expired now) (t.due_of_id now id)
  cases hd : (t.pending.get? id).filter fun r => r.deadline ≤ now with
  | none =>
    rw [hd] at h
    rw [Producer.expired, List.filter_map]
    exact h
  | some r =>
    rw [hd] at h
    rw [Producer.expired, List.filter_map]
    exact h

end Tracker

namespace Told

variable {κ : Type}

/-- The waiter of a request is told an answer. -/
def Answers (x : Told κ) (r : PendingRequest (Waiter κ)) : Prop :=
  x.waiter = r.callback ∧ ∃ answer, x.outcome = .ok answer

/-- The waiter of a request is told that it has expired, and not before its deadline. -/
def Expires (x : Told κ) (r : PendingRequest (Waiter κ)) : Prop :=
  x.waiter = r.callback ∧ x.outcome = .error (.timeout x.id) ∧ r.deadline ≤ x.time

end Told

namespace Client

variable {κ : Type}

/-- What is said of the requests under an id. -/
def calls (id : UInt32) (turns : List (Turn κ)) : List (Told κ) := (turns.flatMap (·.told)).filter (·.id = id)

/-- What a turn does to a request that waits. -/
inductive Turn.Serves (t : Turn κ) (id : UInt32) (r : PendingRequest (Waiter κ)) : Prop
  | keeps (hc : calls id [t] = []) (hg : t.after.tracker.pending.get? id = some r)
  | answers {x : Told κ} (hm : t.before.tracker.mode = .multiple) (hc : calls id [t] = [x]) (hx : x.Answers r)
      (hg : t.after.tracker.pending.get? id = some r)
  | completes {x : Told κ} (hm : t.before.tracker.mode = .single) (hc : calls id [t] = [x]) (hx : x.Answers r)
      (hg : t.after.tracker.pending.get? id = none)
  | forgets (ha : t.act = .forget id) (hc : calls id [t] = []) (hg : t.after.tracker.pending.get? id = none)
  | expires {x : Told κ} (hc : calls id [t] = [x]) (hx : x.Expires r)
      (hg : t.after.tracker.pending.get? id = none)

section
variable {t : Turn κ} {id : UInt32} {r : PendingRequest (Waiter κ)}

theorem calls_append (id : UInt32) (past future : List (Turn κ)) :
    calls id (past ++ future) = calls id past ++ calls id future := by
  simp [calls]

theorem calls_singleton (id : UInt32) (t : Turn κ) : calls id [t] = t.told.filter (·.id = id) := by
  simp [calls]

theorem calls_of_silent (ht : t.told = []) : calls id [t] = [] := by
  rw [calls_singleton, ht]
  rfl

theorem Turn.Books.mode (h : t.Books) : t.after.tracker.mode = t.before.tracker.mode := by
  cases h with
  | same ht h => rw [h]
  | accepted hr ht h => rw [h]; rfl
  | forgotten ha ht h => rw [h]; rfl
  | answered hs hg ht h => rw [h, Tracker.answer_mode]
  | swept hs ht h => rw [h]; rfl

theorem Turn.Books.serves (h : t.Books) (hw : t.before.tracker.pending.get? id = some r)
    (hn : ∀ r', ¬ t.Accepts id r') : t.Serves id r := by
  cases h with
  | same ht h => exact .keeps (calls_of_silent ht) (h ▸ hw)
  | @accepted id' r' hr ht h =>
    have hid : id ≠ id' := by
      rintro rfl
      exact hn r' hr
    refine .keeps (calls_of_silent ht) ?_
    rw [h, Tracker.add, Dictionary.get?_insert, if_neg hid, hw]
  | @forgotten id' ha ht h =>
    by_cases hid : id = id'
    · subst hid
      refine .forgets ha (calls_of_silent ht) ?_
      rw [h, Tracker.remove, Dictionary.get?_erase, if_pos rfl]
    · refine .keeps (calls_of_silent ht) ?_
      rw [h, Tracker.remove, Dictionary.get?_erase, if_neg hid, hw]
  | @answered a hs hg ht h =>
    have hc : calls id [t] =
        if a.id = id then [⟨a.id, a.request.callback, .ok a.answer, t.before.now⟩] else [] := by
      rw [calls_singleton, ht, List.filter_singleton]
      simp
    by_cases hid : a.id = id
    · subst hid
      rw [Tracker.answer, hg] at h
      obtain rfl := Option.some.inj (hg.symm.trans hw)
      rw [if_pos rfl] at hc
      cases hm : t.before.tracker.mode with
      | single =>
        rw [hm] at h
        refine .completes hm hc ⟨rfl, a.answer, rfl⟩ ?_
        rw [h, Dictionary.get?_erase, if_pos rfl]
      | multiple =>
        rw [hm] at h
        exact .answers hm hc ⟨rfl, a.answer, rfl⟩ (h ▸ hw)
    · rw [if_neg hid] at hc
      refine .keeps hc ?_
      rw [h, Tracker.get?_answer_of_ne _ (Ne.symm hid), hw]
  | swept hs ht h =>
    have hc := calls_singleton id t
    have hg := t.before.tracker.get?_sweep t.before.now id
    rw [ht, Tracker.expired_sweep, hw, Option.filter_some] at hc
    rw [← h, hw, Option.filter_some] at hg
    by_cases hd : r.deadline ≤ t.before.now
    · rw [if_pos (by simpa using hd)] at hc
      rw [if_neg (by simpa using hd)] at hg
      exact .expires hc ⟨rfl, rfl, hd⟩ hg
    · rw [if_neg (by simpa using hd)] at hc
      rw [if_pos (by simpa using hd)] at hg
      exact .keeps hc hg

theorem Turn.Occurs.waits (h : t.Occurs) (ha : t.Accepts id r) : t.after.tracker.pending.get? id = some r := by
  obtain ⟨x, hx, ht⟩ := h.asks ha.2
  obtain rfl := Option.some.inj (hx.symm.trans ha.1)
  rw [ht, Tracker.addSent, Tracker.add, Dictionary.get?_insert, if_pos rfl]

/-- What is gone stays gone, and nothing is said of it. -/
theorem Turn.Books.of_gone (h : t.Books) (hw : t.before.tracker.pending.get? id = none)
    (hn : ∀ r', ¬ t.Accepts id r') : calls id [t] = [] ∧ t.after.tracker.pending.get? id = none := by
  cases h with
  | same ht h => exact ⟨calls_of_silent ht, h ▸ hw⟩
  | @accepted id' r' hr ht h =>
    have hid : id ≠ id' := by
      rintro rfl
      exact hn r' hr
    refine ⟨calls_of_silent ht, ?_⟩
    rw [h, Tracker.add, Dictionary.get?_insert, if_neg hid, hw]
  | @forgotten id' ha ht h =>
    refine ⟨calls_of_silent ht, ?_⟩
    rw [h, Tracker.remove, Dictionary.get?_erase, hw, ite_self]
  | @answered a hs hg ht h =>
    have hid : a.id ≠ id := by
      rintro rfl
      cases hg.symm.trans hw
    refine ⟨?_, ?_⟩
    · rw [calls_singleton, ht, List.filter_singleton]
      simp [hid]
    · rw [h, Tracker.get?_answer_of_ne _ (Ne.symm hid), hw]
  | swept hs ht h =>
    rw [calls_singleton, ht, Tracker.expired_sweep, h, Tracker.get?_sweep, hw]
    exact ⟨rfl, rfl⟩

theorem Turn.Books.pending_of_after (h : t.Books) (hn : ∀ r', ¬ t.Accepts id r')
    (hg : t.after.tracker.pending.get? id = some r) : t.before.tracker.pending.get? id = some r := by
  cases hw : t.before.tracker.pending.get? id with
  | none =>
    rw [(h.of_gone hw hn).2] at hg
    cases hg
  | some r' =>
    cases h.serves hw hn with
    | keeps _ hg' | answers _ _ _ hg' => exact hg'.symm.trans hg
    | completes _ _ _ hg' | forgets _ _ hg' | expires _ _ hg' => rw [hg'] at hg; cases hg

end

/-! ## Over a run -/

/-- All that is said of a request is answers, and in single mode nothing is. -/
structure Patient (mode : AnswerMode) (id : UInt32) (r : PendingRequest (Waiter κ)) (turns : List (Turn κ)) :
    Prop where
  answers : ∀ x ∈ calls id turns, x.Answers r
  single : mode = .single → calls id turns = []

/-- A request is forgotten while it waits, and nothing is said of it from then on. -/
def Forgotten (mode : AnswerMode) (id : UInt32) (r : PendingRequest (Waiter κ)) (turns : List (Turn κ)) : Prop :=
  ∃ past t future, turns = past ++ t :: future ∧ t.act = .forget id ∧
    t.before.tracker.pending.get? id = some r ∧ Patient mode id r past ∧ calls id (t :: future) = []

/-- A request has had its last call: in single mode its only one, an answer or the timeout, and in multiple
mode the timeout, after the answers. -/
def Resolved (mode : AnswerMode) (id : UInt32) (r : PendingRequest (Waiter κ)) (turns : List (Turn κ)) : Prop :=
  ∃ earlier last, calls id turns = earlier ++ [last] ∧ (∀ x ∈ earlier, x.Answers r) ∧
    match mode with
    | .single => earlier = [] ∧ (last.Answers r ∨ last.Expires r)
    | .multiple => last.Expires r

inductive Fate (mode : AnswerMode) (id : UInt32) (r : PendingRequest (Waiter κ)) (turns : List (Turn κ))
    (c : Client κ) : Prop
  | waits (hg : c.tracker.pending.get? id = some r) (h : Patient mode id r turns)
  | forgotten (hg : c.tracker.pending.get? id = none) (h : Forgotten mode id r turns)
  | resolved (hg : c.tracker.pending.get? id = none) (h : Resolved mode id r turns)

section
variable {mode : AnswerMode} {id : UInt32} {r : PendingRequest (Waiter κ)} {t : Turn κ} {turns : List (Turn κ)}
  {c c' : Client κ}

theorem Patient.snoc (h : Patient mode id r turns) (hc : calls id [t] = []) : Patient mode id r (turns ++ [t]) := by
  have hcs : calls id (turns ++ [t]) = calls id turns := by rw [calls_append, hc, List.append_nil]
  exact ⟨fun x hx => h.answers x (hcs ▸ hx), fun hm => hcs.trans (h.single hm)⟩

theorem Turn.Serves.fate (ht : t.Serves id r) (hm : t.before.tracker.mode = mode)
    (hw : t.before.tracker.pending.get? id = some r) (h : Patient mode id r turns) :
    Fate mode id r (turns ++ [t]) t.after := by
  cases ht with
  | keeps hc hg => exact .waits hg (h.snoc hc)
  | @answers x hx hc ha hg =>
    refine .waits hg ⟨fun y hy => ?_, fun hs => ?_⟩
    · rw [calls_append, hc] at hy
      rcases List.mem_append.mp hy with hy | hy
      · exact h.answers y hy
      · rw [List.mem_singleton.mp hy]; exact ha
    · rw [hx, hs] at hm; cases hm
  | @completes x hx hc ha hg =>
    obtain rfl : mode = .single := hm.symm.trans hx
    refine .resolved hg ⟨[], x, ?_, (fun y hy => by cases hy), rfl, .inl ha⟩
    rw [calls_append, hc, h.single rfl]
  | forgets ha hc hg => exact .forgotten hg ⟨turns, t, [], rfl, ha, hw, h, hc⟩
  | @expires x hc hx hg =>
    refine .resolved hg ⟨calls id turns, x, by rw [calls_append, hc], h.answers, ?_⟩
    cases mode with
    | single => exact ⟨h.single rfl, .inr hx⟩
    | multiple => exact hx

theorem Run.tracker_mode (h : Run c turns c') : c'.tracker.mode = c.tracker.mode :=
  h.induct (P := fun _ c' => c'.tracker.mode = c.tracker.mode) rfl fun _ _ _ ht ih => ht.books.mode.trans ih

/-- A request waits as long as it was neither forgotten nor has had its last call. -/
theorem Run.fate (h : Run c turns c') (hm : c.tracker.mode = mode) (hw : c.tracker.pending.get? id = some r)
    (hn : ∀ t ∈ turns, ∀ r', ¬ t.Accepts id r') : Fate mode id r turns c' := by
  revert hn
  refine h.induct (P := fun turns c' => (∀ t ∈ turns, ∀ r', ¬ t.Accepts id r') → Fate mode id r turns c') ?_ ?_
  · exact fun _ => .waits hw ⟨fun x hx => (by cases hx), fun _ => rfl⟩
  · intro turns t hr ht ih hn
    have hna := hn t (by simp)
    cases ih fun t' ht' => hn t' (List.mem_append_left _ ht') with
    | waits hg hp => exact (ht.books.serves hg hna).fate (hr.tracker_mode.trans hm) hg hp
    | forgotten hg hf =>
      obtain ⟨past, t', future, rfl, ha, hg', hp, hc⟩ := hf
      obtain ⟨hca, hga⟩ := ht.books.of_gone hg hna
      refine .forgotten hga ⟨past, t', future ++ [t], by simp, ha, hg', hp, ?_⟩
      rw [← List.cons_append, calls_append, hc, hca, List.append_nil]
    | resolved hg hs =>
      obtain ⟨earlier, last, hc, hs⟩ := hs
      obtain ⟨hca, hga⟩ := ht.books.of_gone hg hna
      exact .resolved hga ⟨earlier, last, by rw [calls_append, hca, List.append_nil, hc], hs⟩

theorem Run.pending_of_after (h : Run c turns c') (hn : ∀ t ∈ turns, ∀ r', ¬ t.Accepts id r')
    (hg : c'.tracker.pending.get? id = some r) : c.tracker.pending.get? id = some r := by
  revert hn hg
  refine h.induct (P := fun turns c' => (∀ t ∈ turns, ∀ r', ¬ t.Accepts id r') →
    c'.tracker.pending.get? id = some r → c.tracker.pending.get? id = some r) (fun _ hg => hg) ?_
  intro turns t _ ht ih hn hg
  exact ih (fun t' ht' => hn t' (List.mem_append_left _ ht')) (ht.books.pending_of_after (hn t (by simp)) hg)

/-! ## When the task has finished -/

/-- In the turn nobody is told anything: no callback is given notice, and futures have the outcomes that they
had. -/
structure Turn.Silent (t : Turn κ) : Prop where
  told : t.told = []
  notices : t.notices = []
  outcomes : ∀ slot, t.after.producer.outcomes.get? slot = t.before.producer.outcomes.get? slot

theorem Turn.Occurs.silent (h : t.Occurs) (ht : t.told = []) : t.Silent := by
  have hx := h.tells
  rw [ht] at hx
  exact ⟨ht, hx.notices_eq, fun slot => (hx.outcomes slot).trans (Option.or_none ..)⟩

theorem Turn.Occurs.finished (h : t.Occurs) (hf : t.before.stage = .finished) :
    t.after.stage = .finished ∧ t.Silent := by
  constructor
  · cases h.stages with
    | same he => exact he.trans hf
    | ended _ hs => rw [hf] at hs; cases hs
    | drained _ hs => rw [hf] at hs; cases hs
  · refine h.silent ?_
    cases h.books with
    | same ht | accepted _ ht | forgotten _ ht => exact ht
    | answered hs => rw [hf] at hs; cases hs
    | swept hs => exact absurd hf hs

/-- No request under the id is forgotten, and no other one takes its place. -/
def Untouched (id : UInt32) (turns : List (Turn κ)) : Prop :=
  ∀ t ∈ turns, t.act ≠ .forget id ∧ ∀ r, ¬ t.Accepts id r

/-- Nobody is told anything any more, and what is pending stays so until it is forgotten or replaced. -/
theorem Run.finished (h : Run c turns c') (hf : c.stage = .finished) :
    c'.stage = .finished ∧ (∀ t ∈ turns, t.Silent) ∧
      ∀ id r, c.tracker.pending.get? id = some r → Untouched id turns → c'.tracker.pending.get? id = some r := by
  refine h.induct (P := fun turns c' => c'.stage = .finished ∧ (∀ t ∈ turns, t.Silent) ∧
    ∀ id r, c.tracker.pending.get? id = some r → Untouched id turns → c'.tracker.pending.get? id = some r)
    ⟨hf, fun t ht => (by cases ht), fun id r hr _ => hr⟩ ?_
  rintro turns t - ht ⟨hb, hsilent, hpend⟩
  obtain ⟨ha, hs⟩ := ht.finished hb
  refine ⟨ha, fun t' ht' => ?_, fun id r hr hq => ?_⟩
  · rcases List.mem_append.mp ht' with ht' | ht'
    · exact hsilent t' ht'
    · rw [List.mem_singleton.mp ht']; exact hs
  · obtain ⟨hf, hn⟩ := hq t (by simp)
    have hw := hpend id r hr fun t' ht' => hq t' (List.mem_append_left _ ht')
    have hc : calls id [t] = [] := calls_of_silent hs.told
    cases ht.books.serves hw hn with
    | keeps _ hg => exact hg
    | answers _ hx => rw [hc] at hx; cases hx
    | completes _ hx => rw [hc] at hx; cases hx
    | forgets hx => exact absurd hx hf
    | expires hx => rw [hc] at hx; cases hx

end

end Client

end Switchboard
