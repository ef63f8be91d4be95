import Switchboard.Proofs.Pending.Runs

/-!
# Sessions are runs

A session makes the calls of a callback where it runs it. What it does is a run of a nest in which every
callback makes these calls before it ends (`Session.makeCalls_plays`, `Session.perform_faithful`), and the
callbacks that a session records are those that the run starts. So what holds of runs holds of sessions.
-/

namespace Switchboard

/-- The same requests, with callbacks that are not numbered. -/
structure Tracker.Mirrors {κ : Type} (t : Tracker (Numbered κ)) (s : Tracker κ) : Prop where
  mode : s.mode = t.mode
  entries : s.pending.entries =
    t.pending.entries.map fun e => (e.1, ⟨e.2.payload, e.2.callback.callback, e.2.deadline⟩)

namespace Tracker.Mirrors

variable {κ : Type} {t : Tracker (Numbered κ)} {s : Tracker κ}

theorem empty (mode : AnswerMode) : Mirrors (κ := κ) (.empty mode) (.empty mode) := ⟨rfl, rfl⟩

theorem remove (h : t.Mirrors s) (id : UInt32) : (t.remove id).2.Mirrors (s.remove id).2 := by
  refine ⟨h.mode, ?_⟩
  simp only [Tracker.remove, Dictionary.erase, Dictionary.filter]
  rw [h.entries, List.filter_map]
  rfl

theorem add (h : t.Mirrors s) (id : UInt32) (payload : Bytes) (r : Numbered κ) (deadline : Nat) :
    (t.add id ⟨payload, r, deadline⟩).Mirrors (s.add id ⟨payload, r.callback, deadline⟩) :=
  ⟨h.mode, congrArg (_ :: ·) (h.remove id).entries⟩

theorem get? (h : t.Mirrors s) (id : UInt32) : s.pending.get? id =
    (t.pending.get? id).map fun r => ⟨r.payload, r.callback.callback, r.deadline⟩ := by
  unfold Dictionary.get?
  rw [h.entries, List.find?_map, Option.map_map, Option.map_map]
  rfl

theorem answer (h : t.Mirrors s) (id : UInt32) :
    (s.answer id).1 = (t.answer id).1.map (·.callback) ∧ (t.answer id).2.Mirrors (s.answer id).2 := by
  unfold Tracker.answer
  rw [h.get?, h.mode]
  cases t.pending.get? id with
  | none => exact ⟨rfl, h⟩
  | some r =>
    refine ⟨rfl, ?_⟩
    cases t.mode with
    | single => exact ⟨rfl, (h.remove id).entries⟩
    | multiple => exact h

theorem sweep (h : t.Mirrors s) (now : Nat) :
    (s.sweep now).1 = (t.sweep now).1.map (fun e => (e.1, e.2.callback)) ∧
      (t.sweep now).2.Mirrors (s.sweep now).2 := by
  refine ⟨?_, h.mode, ?_⟩
  · simp only [Tracker.sweep, Dictionary.filter]
    rw [h.entries, List.filter_map, List.map_map, List.map_map]
    rfl
  · simp only [Tracker.sweep, Dictionary.filter]
    rw [h.entries, List.filter_map]
    rfl

end Tracker.Mirrors

/-- What a callback was told, apart from what its own calls returned. -/
def Ran.told {τ : Type} (r : Ran τ) : τ × UInt32 × Outcome := (r.tag, r.id, r.outcome)

namespace Nest

variable {κ : Type} {depth : Nat} {acts acts' : List (Act κ)} {turns turns' : List (Turn κ)}

/-- There are always `depth` callbacks running or more, and while there are no more the acts are these. -/
structure Within (depth : Nat) (acts : List (Act κ)) (turns : List (Turn κ)) : Prop where
  deep : ∀ t ∈ turns, depth ≤ t.before.running.length
  acts_eq : (turns.filter (·.before.running.length = depth)).map (·.act) = acts

theorem Within.nil : Within (κ := κ) depth [] [] := ⟨fun t ht => (by cases ht), rfl⟩

theorem Within.append (h : Within depth acts turns) (h' : Within depth acts' turns') :
    Within depth (acts ++ acts') (turns ++ turns') := by
  refine ⟨fun t ht => (List.mem_append.mp ht).elim (h.deep t) (h'.deep t), ?_⟩
  rw [List.filter_append, List.map_append, h.acts_eq, h'.acts_eq]

/-- A turn, and what happens in the callbacks that it starts. -/
theorem Within.cons (t : Turn κ) (h : ∀ u ∈ turns, t.before.running.length < u.before.running.length) :
    Within t.before.running.length [t.act] (t :: turns) := by
  refine ⟨fun u hu => ?_, ?_⟩
  · rcases List.mem_cons.mp hu with rfl | hu
    · exact Nat.le_refl _
    · exact Nat.le_of_lt (h u hu)
  · rw [List.filter_cons_of_pos (by simp),
      List.filter_eq_nil_iff.mpr fun u hu => by simpa using Nat.ne_of_gt (h u hu)]
    rfl

end Nest

/-- The call as an act of a nest, unless it only looks. -/
def Call.act? {τ : Type} : Call τ → Option (Nest.Act (Callback τ (Call τ)))
  | .add id payload timeout callback => some (.add id payload timeout callback)
  | .track payload timeout callback sent => some (.track payload timeout callback sent)
  | .answer id data => some (.answer id data)
  | .remove id => some (.remove id)
  | .sweep now => some (.sweep now)
  | .contains _ | .size | .mode => none

namespace Session

variable {τ : Type}

abbrev Stage (τ : Type) : Type := Nest (Callback τ (Call τ))

abbrev Scene (τ : Type) : Type := Nest.Turn (Callback τ (Call τ))

def told (st : Nest.Start (Callback τ (Call τ))) : τ × UInt32 × Outcome :=
  (st.request.callback.tag, st.id, st.outcome)

/-- From `s` to `s'` the session does what the nest does in the turns. -/
structure Plays (s s' : Session τ) (n : Stage τ) (turns : List (Scene τ)) (n' : Stage τ) : Prop where
  run : n.Run turns n'
  mirrors : n'.tracker.Mirrors s'.tracker
  ran : ∃ ran, s'.ran = ran ++ s.ran ∧ (ran.map Ran.told).Perm ((turns.filterMap (·.started)).map told)

section
variable {s s' s'' : Session τ} {n n' n'' : Stage τ} {turns turns' : List (Scene τ)}

theorem Plays.nil (h : n.tracker.Mirrors s.tracker) : Plays s s n [] n := ⟨.nil, h, [], rfl, .nil⟩

theorem Plays.quiet {act : Nest.Act (Callback τ (Call τ))} (hs : n.Steps act none n')
    (hm : n'.tracker.Mirrors s'.tracker) (ha : s'.ran = s.ran) : Plays s s' n [⟨n, act, none, n'⟩] n' :=
  ⟨Nest.Run.nil.next hs, hm, [], ha, .nil⟩

theorem Plays.of_ran (h : Plays s s' n turns n') (hr : s''.ran = s.ran) : Plays s'' s' n turns n' :=
  ⟨h.run, h.mirrors, hr ▸ h.ran⟩

theorem Plays.trans (h : Plays s s' n turns n') (h' : Plays s' s'' n' turns' n'') :
    Plays s s'' n (turns ++ turns') n'' := by
  obtain ⟨ran, hr, hp⟩ := h.ran
  obtain ⟨ran', hr', hp'⟩ := h'.ran
  refine ⟨h.run.append h'.run, h'.mirrors, ran' ++ ran, ?_, ?_⟩
  · rw [hr', hr, List.append_assoc]
  · rw [List.filterMap_append, List.map_append, List.map_append]
    exact (hp'.append hp).trans List.perm_append_comm

end

/-- Whatever call is made, the session plays a run that makes this call, as the act that stands for it, and
leaves the running callbacks as they are. -/
def Faithful (act? : Call τ → Option (Nest.Act (Callback τ (Call τ))))
    (make : Call τ → Session τ → Reply × Session τ) : Prop :=
  ∀ call s (n : Stage τ), n.tracker.Mirrors s.tracker → ∃ turns n', Plays s (make call s).2 n turns n' ∧
    n'.running = n.running ∧ Nest.Within n.running.length (act? call).toList turns

section
variable {act? : Call τ → Option (Nest.Act (Callback τ (Call τ)))} {make : Call τ → Session τ → Reply × Session τ}

theorem makeCalls_plays (hmake : Faithful act? make) : ∀ (calls : List (Call τ)) (s : Session τ) (n : Stage τ),
    n.tracker.Mirrors s.tracker →
    ∃ turns n', Plays s (makeCalls make calls s).2 n turns n' ∧ n'.running = n.running ∧
      Nest.Within n.running.length (calls.filterMap act?) turns
  | [], s, n, h => ⟨[], n, .nil h, rfl, .nil⟩
  | call :: calls, s, n, h => by
    obtain ⟨turns, n', hp, hr, hw⟩ := hmake call s n h
    obtain ⟨turns', n'', hp', hr', hw'⟩ := makeCalls_plays hmake calls (make call s).2 n' hp.mirrors
    refine ⟨turns ++ turns', n'', hp.trans hp', hr'.trans hr, ?_⟩
    rw [hr] at hw'
    have hacts : (call :: calls).filterMap act? = (act? call).toList ++ calls.filterMap act? := by
      rw [List.filterMap_cons]
      cases act? call <;> rfl
    rw [hacts]
    exact hw.append hw'

theorem runCallback_plays (hmake : Faithful act? make) {n n' : Stage τ} {act : Nest.Act (Callback τ (Call τ))}
    {st : Nest.Start (Callback τ (Call τ))} (hs : n.Steps act (some st) n') {s : Session τ}
    (h : n'.tracker.Mirrors s.tracker) :
    ∃ turns n'', Plays s (runCallback make st.request.callback st.id st.outcome s) n
        (⟨n, act, some st, n'⟩ :: turns) n'' ∧
      n''.running = n'.running ∧ ∀ t ∈ turns, n'.running.length ≤ t.before.running.length := by
  obtain ⟨turns, n'', hp, hr, hw⟩ := makeCalls_plays hmake st.request.callback.calls s n' h
  obtain ⟨ran, ha, hperm⟩ := hp.ran
  refine ⟨turns, n'', ⟨(Nest.Run.nil.next hs).append hp.run, hp.mirrors, ?_⟩, hr, hw.deep⟩
  exact ⟨_ :: ran, congrArg (_ :: ·) ha, hperm.cons (told st)⟩

/-- Run a callback that was started, and then those that are due behind it. -/
theorem runDue_plays (hmake : Faithful act? make)
    {outer : List (List (UInt32 × Numbered (Callback τ (Call τ))))} :
    ∀ (due : List (UInt32 × Numbered (Callback τ (Call τ)))) {n n' : Stage τ}
      {act : Nest.Act (Callback τ (Call τ))} {st : Nest.Start (Callback τ (Call τ))} {s : Session τ},
    n.Steps act (some st) n' → n'.tracker.Mirrors s.tracker → n'.running = due :: outer →
    ∃ turns n'', Plays s ((due.map fun e => (e.1, e.2.callback)).foldl
        (fun s e => runCallback make e.2 e.1 (.error (.timeout e.1)) s)
        (runCallback make st.request.callback st.id st.outcome s)) n (⟨n, act, some st, n'⟩ :: turns) n'' ∧
      n''.running = outer ∧ ∀ t ∈ turns, outer.length < t.before.running.length
  | [], n, n', act, st, s, hs, h, hr => by
    obtain ⟨turns, n'', hp, hr', hd⟩ := runCallback_plays hmake hs h
    rw [hr] at hr' hd
    refine ⟨_, _, hp.trans (.quiet (.finish hr') hp.mirrors rfl), rfl, fun t ht => ?_⟩
    rcases List.mem_append.mp ht with ht | ht
    · exact hd t ht
    · rw [List.mem_singleton.mp ht, hr']
      exact Nat.lt_succ_self _
  | (i, r) :: due, n, n', act, st, s, hs, h, hr => by
    obtain ⟨turns, n'', hp, hr', hd⟩ := runCallback_plays hmake hs h
    rw [hr] at hr' hd
    obtain ⟨turns', m, hp', ho, hd'⟩ := runDue_plays hmake due (.finish hr') hp.mirrors rfl
    refine ⟨_, m, hp.trans hp', ho, fun t ht => ?_⟩
    rcases List.mem_append.mp ht with ht | ht
    · exact hd t ht
    · rcases List.mem_cons.mp ht with rfl | ht
      · rw [hr']
        exact Nat.lt_succ_self _
      · exact hd' t ht

theorem makeCall_plays (hmake : Faithful act? make) : Faithful Call.act? (makeCall (runCallback make)) := by
  intro call s n h
  have quiet : ∀ {act : Nest.Act (Callback τ (Call τ))} {s' : Session τ} {n' : Stage τ},
      call.act? = some act → n.Steps act none n' → n'.tracker.Mirrors s'.tracker → s'.ran = s.ran →
      n'.running = n.running → ∃ turns n', Plays s s' n turns n' ∧ n'.running = n.running ∧
        Nest.Within n.running.length call.act?.toList turns := by
    intro act s' n' ha hs hm hran hr
    rw [ha]
    exact ⟨_, _, .quiet hs hm hran, hr, Nest.Within.cons ⟨n, act, none, n'⟩ fun t ht => (by cases ht)⟩
  cases call with
  | add id payload timeout callback => exact quiet rfl (.add id payload timeout callback) (h.add ..) rfl rfl
  | track payload timeout callback sent =>
    cases sent with
    | ok id => exact quiet rfl (.track payload timeout callback (.ok id)) (h.add ..) rfl rfl
    | error f => exact quiet rfl (.track payload timeout callback (.error f)) h rfl rfl
  | answer id data =>
    obtain ⟨hk, hm⟩ := h.answer id
    rcases hs : s.tracker.answer id with ⟨result, tracker⟩
    rw [hs] at hk hm
    simp only [makeCall, hs]
    cases ha : (n.tracker.answer id).1 with
    | error f =>
      rw [ha] at hk
      obtain rfl : result = .error f := hk
      exact quiet rfl (.unanswered data ha) h rfl rfl
    | ok r =>
      obtain ⟨turns, n', hp, hr, hd⟩ :=
        runDue_plays hmake [] (.answered id data ha) (s := ⟨tracker, s.ran⟩) hm rfl
      rw [ha] at hk
      obtain rfl : result = .ok r.callback := hk
      exact ⟨_, n', hp.of_ran rfl, hr, Nest.Within.cons ⟨n, _, _, _⟩ hd⟩
  | remove id => exact quiet rfl (.remove id) (h.remove id) rfl rfl
  | sweep now =>
    obtain ⟨hk, hm⟩ := h.sweep now
    simp only [makeCall, hk]
    cases hd : (n.tracker.sweep now).1 with
    | nil =>
      have hp : ([] : List (UInt32 × Numbered (Callback τ (Call τ)))).Perm (n.tracker.sweep now).1 := by rw [hd]
      exact quiet rfl (.sweep now hp) hm rfl rfl
    | cons e due =>
      have hp : (e :: due).Perm (n.tracker.sweep now).1 := by rw [hd]
      obtain ⟨turns, n', hp, hr, hdeep⟩ :=
        runDue_plays hmake due (.sweep now hp) (s := ⟨(s.tracker.sweep now).2, s.ran⟩) hm rfl
      exact ⟨_, n', hp.of_ran rfl, hr, Nest.Within.cons ⟨n, _, _, _⟩ hdeep⟩
  | contains | size | mode => exact ⟨[], n, .nil h, rfl, .nil⟩

end

theorem perform_faithful : ∀ depth : Nat, Faithful (τ := τ) Call.act? (perform depth)
  | 0 =>
    have idle : Faithful (τ := τ) (fun _ => none) fun _ s => (.done, s) := fun _ _ n h =>
      ⟨[], n, .nil h, rfl, .nil⟩
    makeCall_plays idle
  | depth + 1 => makeCall_plays (perform_faithful depth)

/-- Whatever calls a session makes, nested to any depth, it plays a run that makes these calls, in which
every callback comes to its end, and the callbacks that it ran are those that the run started. -/
theorem makeCalls_perform (mode : AnswerMode) (depth : Nat) (calls : List (Call τ)) :
    ∃ (turns : List (Scene τ)) (n : Stage τ), Nest.Run (Nest.start mode) turns n ∧ n.running = [] ∧
      Nest.Within 0 (calls.filterMap Call.act?) turns ∧
      n.tracker.Mirrors (makeCalls (perform depth) calls (start mode)).2.tracker ∧
      ((makeCalls (perform depth) calls (start mode)).2.ran.map Ran.told).Perm
        ((turns.filterMap (·.started)).map told) := by
  obtain ⟨turns, n, hp, hr, hw⟩ := makeCalls_plays (perform_faithful depth) calls (start mode) (Nest.start mode)
    (.empty mode)
  obtain ⟨ran, ha, hperm⟩ := hp.ran
  refine ⟨turns, n, hp.run, hr, hw, hp.mirrors, ?_⟩
  have hnil : ran = (makeCalls (perform depth) calls (start mode)).2.ran := by
    rw [ha]
    exact (List.append_nil ran).symm
  rw [← hnil]
  exact hperm

end Session

end Switchboard
