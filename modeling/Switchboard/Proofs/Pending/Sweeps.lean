import Switchboard.Proofs.Pending.Runs

/-!
# Sweeps

A sweep parts the pending requests: those whose deadline has come are told so and go, the others stay as they
were. So sweeps compose. To sweep early and then late is to sweep late, apart from the order of the calls, and
behind a late sweep an early one finds nothing (`Session.sweeps_compose`).
-/

namespace Switchboard

namespace Tracker

variable {κ : Type} (t : Tracker κ) {t₁ t₂ : Nat}

theorem sweep_sweep (h : t₁ ≤ t₂) : ((t.sweep t₁).2.sweep t₂).2 = (t.sweep t₂).2 := by
  have he : (t.pending.filter fun _ r => !(r.deadline ≤ t₁)).filter (fun _ r => !(r.deadline ≤ t₂)) =
      t.pending.filter fun _ r => !(r.deadline ≤ t₂) := by
    apply Dictionary.ext
    simp only [Dictionary.filter, List.filter_filter]
    apply List.filter_congr
    intro e _
    by_cases h₂ : e.2.deadline ≤ t₂
    · simp [h₂]
    · have h₁ : ¬ e.2.deadline ≤ t₁ := fun h₁ => h₂ (Nat.le_trans h₁ h)
      simp [h₁, h₂]
  exact congrArg (Tracker.mk t.mode) he

theorem sweep_perm (h : t₁ ≤ t₂) : ((t.sweep t₁).1 ++ ((t.sweep t₁).2.sweep t₂).1).Perm (t.sweep t₂).1 := by
  simp only [sweep, Dictionary.filter]
  rw [← List.map_append]
  apply List.Perm.map
  have hp := List.filter_append_perm (fun e => e.2.deadline ≤ t₁)
    (t.pending.entries.filter fun e => e.2.deadline ≤ t₂)
  have hf : (t.pending.entries.filter fun e => e.2.deadline ≤ t₂).filter (fun e => e.2.deadline ≤ t₁) =
      t.pending.entries.filter fun e => e.2.deadline ≤ t₁ := by
    rw [List.filter_filter]
    refine List.filter_congr fun e _ => ?_
    by_cases h₁ : e.2.deadline ≤ t₁
    · simp [h₁, Nat.le_trans h₁ h]
    · simp [h₁]
  rw [hf] at hp
  refine (List.Perm.of_eq ?_).trans hp
  congr 1
  rw [List.filter_filter, List.filter_filter]
  exact List.filter_congr fun e _ => Bool.and_comm _ _

theorem sweep_after (h : t₁ ≤ t₂) : (t.sweep t₂).2.sweep t₁ = ([], (t.sweep t₂).2) := by
  have late : ∀ e ∈ (t.sweep t₂).2.pending.entries, ¬ e.2.deadline ≤ t₁ := by
    intro e he h₁
    have hl := (List.mem_filter.mp he).2
    simp [Nat.le_trans h₁ h] at hl
  unfold sweep at late ⊢
  congr 1
  · rw [List.map_eq_nil_iff]
    exact List.filter_eq_nil_iff.mpr fun e he => by simpa using late e he
  · congr 1
    apply Dictionary.ext
    exact List.filter_eq_self.mpr fun e he => by simpa using late e he

theorem answer_of_swept {id : UInt32} {r : PendingRequest κ} {now : Nat} (hg : t.pending.get? id = some r)
    (hd : r.deadline ≤ now) : (t.sweep now).2.answer id = (.error .messageNotFound, (t.sweep now).2) := by
  have hn : (t.sweep now).2.pending.get? id = none := by
    rw [get?_sweep, hg]
    simp [hd]
  rw [answer, hn]

theorem length_sweep (now : Nat) : (t.sweep now).1.length + (t.sweep now).2.size = t.size := by
  have h := (t.waiting_sweep now).length_eq
  simpa [waiting, size, Dictionary.size] using h

end Tracker

namespace Session

variable {τ : Type} {s : Session τ}

/-- The callbacks of the pending requests make no calls. -/
def Quiet (s : Session τ) : Prop := ∀ id r, s.tracker.pending.get? id = some r → r.callback.calls = []

/-- The run of a callback that makes no calls, when its time is over. -/
def expiry (e : UInt32 × Callback τ (Call τ)) : Ran τ := ⟨e.2.tag, e.1, .error (.timeout e.1), []⟩

/-- The session after a sweep, if no callback makes calls. -/
def swept (s : Session τ) (now : Nat) : Session τ :=
  ⟨(s.tracker.sweep now).2, ((s.tracker.sweep now).1.map expiry).reverse ++ s.ran⟩

theorem Quiet.swept (h : s.Quiet) (now : Nat) : (s.swept now).Quiet := by
  intro id r hr
  have hr : (s.tracker.sweep now).2.pending.get? id = some r := hr
  rw [Tracker.get?_sweep, Option.filter_eq_some_iff] at hr
  exact h id r hr.1

theorem Quiet.due (h : s.Quiet) (now : Nat) : ∀ e ∈ (s.tracker.sweep now).1, e.2.calls = [] := by
  intro e he
  obtain ⟨r, hg, -, hr⟩ := (s.tracker.mem_sweep_iff now e.1 e.2).mp he
  rw [← hr]
  exact h _ r hg

theorem runAll_quiet (make : Call τ → Session τ → Reply × Session τ) :
    ∀ (due : List (UInt32 × Callback τ (Call τ))) (s : Session τ), (∀ e ∈ due, e.2.calls = []) →
      due.foldl (fun s e => runCallback make e.2 e.1 (.error (.timeout e.1)) s) s =
        ⟨s.tracker, (due.map expiry).reverse ++ s.ran⟩
  | [], s, _ => rfl
  | e :: due, s, h => by
    have he : runCallback make e.2 e.1 (.error (.timeout e.1)) s = ⟨s.tracker, expiry e :: s.ran⟩ := by
      unfold runCallback
      rw [h e List.mem_cons_self]
      rfl
    rw [List.foldl_cons, he, runAll_quiet make due _ fun e' he' => h e' (List.mem_cons_of_mem e he')]
    simp

theorem Quiet.perform_sweep (h : s.Quiet) (depth now : Nat) :
    perform depth (.sweep now) s = (.swept (s.tracker.sweep now).1.length, s.swept now) := by
  have hr := fun make => runAll_quiet make (s.tracker.sweep now).1 ⟨(s.tracker.sweep now).2, s.ran⟩ (h.due now)
  cases depth with
  | zero => exact Prod.ext rfl (hr _)
  | succ depth => exact Prod.ext rfl (hr _)

/-- What a sweep at `now` that removes `count` requests makes of a session. -/
structure Sweeps (s : Session τ) (now count : Nat) (s' : Session τ) : Prop where
  mode : s'.tracker.mode = s.tracker.mode
  kept : ∀ id, s'.tracker.pending.get? id = (s.tracker.pending.get? id).filter fun r => !(r.deadline ≤ now)
  size : count + s'.tracker.size = s.tracker.size
  /-- One call for each request whose deadline has come, and no other. -/
  told : ∃ ran, s'.ran = ran ++ s.ran ∧ ran.length = count ∧ ∀ id, ran.filter (·.id = id) =
    (((s.tracker.pending.get? id).filter fun r => r.deadline ≤ now).map fun r =>
      ⟨r.callback.tag, id, .error (.timeout id), []⟩).toList

theorem sweeps_swept (s : Session τ) (now : Nat) :
    s.Sweeps now (s.tracker.sweep now).1.length (s.swept now) := by
  constructor
  case mode => rfl
  case kept => exact s.tracker.get?_sweep now
  case size => exact s.tracker.length_sweep now
  case told =>
    refine ⟨_, rfl, by simp, fun id => ?_⟩
    have hd := congrArg (fun due => (due.map expiry).reverse) (s.tracker.due_of_id now id)
    rw [List.filter_reverse, List.filter_map]
    refine Eq.trans hd ?_
    cases (s.tracker.pending.get? id).filter fun r => r.deadline ≤ now with
    | none => rfl
    | some r => rfl

section
variable {t₁ t₂ : Nat}

theorem swept_perm (s : Session τ) (h : t₁ ≤ t₂) : ((s.swept t₁).swept t₂).ran.Perm (s.swept t₂).ran := by
  have hp := (s.tracker.sweep_perm h).map expiry
  have hr := (List.reverse_perm _).trans (hp.trans (List.reverse_perm _).symm)
  rw [List.map_append, List.reverse_append] at hr
  have ha := hr.append_right s.ran
  rw [List.append_assoc] at ha
  exact ha

theorem swept_after (s : Session τ) (h : t₁ ≤ t₂) : (s.swept t₂).swept t₁ = s.swept t₂ := by
  have ha : (s.swept t₂).tracker.sweep t₁ = ([], (s.swept t₂).tracker) := s.tracker.sweep_after h
  rw [swept, ha]
  rfl

end

/-- **Sweeps are exact and compose**, where callbacks make no calls. A sweep tells those whose deadline has come
that their time is over, once each, removes them and counts them, and an answer to one of them finds nothing. To
sweep at `t₁` and then at `t₂` comes to the same as to sweep at `t₂`, and to sweep at `t₁` behind that comes to
nothing. -/
theorem Quiet.sweeps_compose (h : s.Quiet) (depth : Nat) :
    (∀ now, ∃ count s', perform depth (.sweep now) s = (.swept count, s') ∧ s.Sweeps now count s' ∧
      ∀ id r data, s.tracker.pending.get? id = some r → r.deadline ≤ now →
        perform depth (.answer id data) s' = (.answered (.error .messageNotFound), s')) ∧
    ∀ t₁ t₂, t₁ ≤ t₂ → ∃ n₁ n₂ s₁ s₁₂ s₂, perform depth (.sweep t₁) s = (.swept n₁, s₁) ∧
      perform depth (.sweep t₂) s₁ = (.swept n₂, s₁₂) ∧ perform depth (.sweep t₂) s = (.swept (n₁ + n₂), s₂) ∧
      s₁₂.tracker = s₂.tracker ∧ s₁₂.ran.Perm s₂.ran ∧ perform depth (.sweep t₁) s₂ = (.swept 0, s₂) := by
  constructor
  · intro now
    refine ⟨_, _, h.perform_sweep depth now, s.sweeps_swept now, fun id r data hg hd => ?_⟩
    have ha : (s.swept now).tracker.answer id = (.error .messageNotFound, (s.swept now).tracker) :=
      s.tracker.answer_of_swept hg hd
    cases depth with
    | zero => simp only [perform, makeCall, ha]
    | succ depth => simp only [perform, makeCall, ha]
  · intro t₁ t₂ ht
    have hl := (s.tracker.sweep_perm ht).length_eq
    rw [List.length_append] at hl
    refine ⟨_, _, _, _, s.swept t₂, h.perform_sweep depth t₁, (h.swept t₁).perform_sweep depth t₂, ?_,
      s.tracker.sweep_sweep ht, s.swept_perm ht, ?_⟩
    · rw [h.perform_sweep, ← hl]
      rfl
    · rw [(h.swept t₂).perform_sweep, s.swept_after ht]
      have ha : (s.swept t₂).tracker.sweep t₁ = ([], (s.swept t₂).tracker) := s.tracker.sweep_after ht
      rw [ha]
      rfl

/-- Of three requests two expire at once, and one later. -/
theorem sweeps_compose_three : ∃ s : Session String, s.Quiet ∧ s.tracker.size = 3 ∧
    (∃ s', perform 0 (.sweep 5) s = (.swept 2, s') ∧ s.Sweeps 5 2 s' ∧ s'.tracker.size = 1) ∧
    ∃ n₁ n₂ s₁ s₁₂ s₂, perform 0 (.sweep 5) s = (.swept n₁, s₁) ∧ perform 0 (.sweep 9) s₁ = (.swept n₂, s₁₂) ∧
      perform 0 (.sweep 9) s = (.swept (n₁ + n₂), s₂) ∧ s₁₂.tracker = s₂.tracker ∧ s₁₂.ran.Perm s₂.ran ∧
      perform 0 (.sweep 5) s₂ = (.swept 0, s₂) := by
  let s : Session String := ⟨(((Tracker.empty .multiple).add 1 ⟨[], ⟨"a", []⟩, 5⟩).add 2 ⟨[], ⟨"b", []⟩, 9⟩).add 3
    ⟨[], ⟨"c", []⟩, 4⟩, []⟩
  have hq : s.Quiet := by
    intro id r hr
    have hm := Tracker.mem_waiting_of_get? hr
    have hw : s.tracker.waiting = [(3, ⟨"c", []⟩), (2, ⟨"b", []⟩), (1, ⟨"a", []⟩)] := rfl
    rw [hw] at hm
    simp only [List.mem_cons, Prod.mk.injEq, List.not_mem_nil, or_false] at hm
    rcases hm with ⟨-, hc⟩ | ⟨-, hc⟩ | ⟨-, hc⟩ <;> rw [hc]
  obtain ⟨he, hc⟩ := hq.sweeps_compose 0
  refine ⟨s, hq, rfl, ?_, hc 5 9 (by decide)⟩
  obtain ⟨count, s', hp, hs, -⟩ := he 5
  have hn : (perform 0 (.sweep 5) s).1 = .swept 2 := rfl
  rw [hp] at hn
  obtain rfl : count = 2 := Reply.swept.inj hn
  have hz : 2 + s'.tracker.size = 3 := hs.size
  exact ⟨s', hp, hs, by omega⟩

end Session

end Switchboard
