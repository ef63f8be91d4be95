import Switchboard.Proofs.Pending.Resolution
import Switchboard.Proofs.Pending.Sessions

/-!
# What sessions end with

When no callback is running any more, nothing is due: a request still waits, or a call took it out of the
tracker, and what its callback was told goes with it (`Run.ending`). A run that a session plays ends so, and
request by request these are the callbacks that the session ran (`Session.calls_resolve_once`).
-/

namespace Switchboard

theorem perm_flatMap_filter {α β : Type} [DecidableEq β] (f : α → β) : ∀ (keys : List β) (xs : List α),
    keys.Nodup → (∀ x ∈ xs, f x ∈ keys) → xs.Perm (keys.flatMap fun k => xs.filter (f · = k))
  | [], xs, _, h => by
    rw [List.eq_nil_iff_forall_not_mem.mpr fun x hx => List.not_mem_nil (h x hx)]
    exact .nil
  | k :: keys, xs, hn, h => by
    obtain ⟨hk, hn⟩ := List.nodup_cons.mp hn
    have ih := perm_flatMap_filter f keys (xs.filter fun x => !decide (f x = k)) hn fun x hx => by
      obtain ⟨hx, hne⟩ := List.mem_filter.mp hx
      exact (List.mem_cons.mp (h x hx)).resolve_left (by simpa using hne)
    have hrest : (keys.flatMap fun k' => (xs.filter fun x => !decide (f x = k)).filter (f · = k')) =
        keys.flatMap fun k' => xs.filter (f · = k') := by
      refine List.flatMap_congr fun k' hk' => ?_
      rw [List.filter_filter]
      refine List.filter_congr fun x _ => ?_
      by_cases hx : f x = k'
      · simpa [hx] using ne_of_mem_of_not_mem hk' hk
      · simp [hx]
    rw [hrest] at ih
    exact (List.filter_append_perm (f · = k) xs).symm.trans (ih.append_left _)

namespace Nest

variable {κ : Type} {n n' : Nest κ} {mode : AnswerMode} {turns : List (Turn κ)} {id : UInt32} {r : Numbered κ}

/-- The requests that the tracker takes in the turns. -/
def requests (turns : List (Turn κ)) : List (UInt32 × Numbered κ) :=
  turns.filterMap fun t => t.before.takes? t.act

theorem requests_snoc (turns : List (Turn κ)) (t : Turn κ) :
    requests (turns ++ [t]) = requests turns ++ (t.before.takes? t.act).toList := by
  rw [requests, requests, List.filterMap_append, List.filterMap_cons]
  cases t.before.takes? t.act <;> rfl

theorem Run.requests_numbered (h : Run (Nest.start mode) turns n) :
    ((requests turns).map (·.2.number)).Nodup ∧ ∀ e ∈ requests turns, e.2.number < n.taken := by
  induction h with
  | nil => exact ⟨List.nodup_nil, fun e he => by cases he⟩
  | @snoc turns t h ht ih =>
    obtain ⟨hn, hlt⟩ := ih
    have hle := ht.taken_le
    rw [requests_snoc]
    cases ha : t.before.takes? t.act with
    | none =>
      rw [Option.toList_none, List.append_nil]
      exact ⟨hn, fun e he => Nat.lt_of_lt_of_le (hlt e he) ht.taken_mono⟩
    | some e =>
      rw [ha] at hle
      have he := takes?_eq_some ha
      refine ⟨?_, fun e' he' => ?_⟩
      · rw [List.map_append, List.nodup_append]
        refine ⟨hn, List.nodup_singleton _, fun x hx y hy => ?_⟩
        obtain ⟨e', he', rfl⟩ := List.mem_map.mp hx
        rw [List.mem_singleton.mp hy]
        exact Nat.ne_of_lt (Nat.lt_of_lt_of_eq (hlt e' he') he.symm)
      · rcases List.mem_append.mp he' with he' | he'
        · exact Nat.lt_of_lt_of_le (hlt e' he') ht.taken_mono
        · rw [List.mem_singleton.mp he', he]
          exact hle

/-- What is unsettled has been taken. -/
theorem Run.mem_requests (h : Run (Nest.start mode) turns n) {e : UInt32 × Numbered κ} (he : e ∈ n.unsettled) :
    e ∈ requests turns := by
  induction h with
  | nil => cases he
  | @snoc turns t h ht ih =>
    rw [requests_snoc, List.mem_append]
    rcases List.mem_append.mp (ht.unsettled_subperm.subset he) with he | he
    · exact .inr he
    · exact .inl (ih he)

theorem Run.started_perm (h : Run (Nest.start mode) turns n) : (turns.filterMap (·.started)).Perm
    ((requests turns).flatMap fun e => starts e.2.number turns) := by
  have hp := perm_flatMap_filter (fun st : Start κ => st.request.number) ((requests turns).map (·.2.number))
    (turns.filterMap (·.started)) h.requests_numbered.1 fun st hst => by
      obtain ⟨t, ht, hs⟩ := List.mem_filterMap.mp hst
      obtain ⟨past, future, rfl⟩ := List.append_of_mem ht
      obtain ⟨hpast, hstep, -⟩ := h.split
      rw [hs] at hstep
      have hm := hpast.mem_requests hstep.mem_unsettled
      rw [requests, List.filterMap_append]
      exact List.mem_map_of_mem (List.mem_append_left _ hm)
  rw [List.flatMap_map] at hp
  exact hp

/-- All that the callback of a request was told by the time that no callback is running: the request still
waits, or something took it out of the tracker. -/
inductive Ending (mode : AnswerMode) (turns : List (Turn κ)) (n : Nest κ) (id : UInt32) (r : Numbered κ) :
    List (Start κ) → Prop
  | waits (answers : List Bytes) (hm : mode = .single → answers = []) (hw : n.Waits id r) :
      Ending mode turns n id r (answers.map fun a => ⟨r, id, .ok a⟩)
  | answered {u : Turn κ} (hu : u ∈ turns) (hl : u.Leaves id r) {data : Bytes} (ha : u.act = .answer id data)
      (hm : mode = .single) : Ending mode turns n id r [⟨r, id, .ok data⟩]
  | expired {u : Turn κ} (hu : u ∈ turns) (hl : u.Leaves id r) {now : Nat} (ha : u.act = .sweep now)
      (answers : List Bytes) (hm : mode = .single → answers = []) :
      Ending mode turns n id r ((answers.map fun a => ⟨r, id, .ok a⟩) ++ [⟨r, id, .error (.timeout id)⟩])
  /-- Removed or replaced, it is told nothing from then on. -/
  | dropped {past future : List (Turn κ)} {u : Turn κ} (hu : turns = past ++ u :: future) (hl : u.Leaves id r)
      (ha : (∃ i, u.act = .remove i) ∨ (u.before.takes? u.act).isSome) (answers : List Bytes)
      (hm : mode = .single → answers = []) (hs : starts r.number (u :: future) = []) :
      Ending mode turns n id r (answers.map fun a => ⟨r, id, .ok a⟩)

theorem Run.ending (h : Run (Nest.start mode) turns n) (hr : n.running = []) (he : (id, r) ∈ requests turns) :
    Ending mode turns n id r (starts r.number turns) := by
  obtain ⟨t, ht, htakes⟩ := List.mem_filterMap.mp he
  obtain ⟨past, future, rfl⟩ := List.append_of_mem ht
  obtain ⟨hf, hn, hw, hmode, hst⟩ := h.taken htakes
  rw [hst]
  by_cases hw' : n.Waits id r
  · obtain ⟨answers, hm, hs⟩ := hf.starts_of_waits hn hw hw'
    rw [hs]
    exact .waits answers (hmode ▸ hm) hw'
  · obtain ⟨mid, u, rest, rfl, hl⟩ := hf.exists_leaves hw hw'
    obtain ⟨hmid, hu, hrest⟩ := hf.split
    obtain ⟨answers, hm, hs⟩ := hmid.starts_of_waits hn hw hl.1
    have hlast := hrest.leaving hu (hmid.sound hn) hl
    rw [hmode] at hm
    rw [hmid.mode_eq, hmode] at hlast
    have hu : u ∈ past ++ t :: (mid ++ u :: rest) := by simp
    rw [starts_append, hs]
    generalize hx : starts r.number (u :: rest) = last at hlast
    cases hlast with
    | answered ha hsingle =>
      rw [hm hsingle]
      exact .answered hu hl ha hsingle
    | expired ha => exact .expired hu hl ha answers hm
    | due ha hd =>
      rw [Due, Nest.due, hr] at hd
      cases hd
    | dropped ha =>
      rw [List.append_nil]
      exact .dropped (List.append_assoc past (t :: mid) (u :: rest)).symm hl ha answers hm hx

end Nest

/-- **Sessions resolve every request once.** The calls of a session, with those of the callbacks that it
runs, are a run at the end of which no callback is running. Request by request the session has run the
callbacks with what the run told them: answers and then at most once that time is over, in single mode one
thing at most, and what became of each request says which. -/
theorem Session.calls_resolve_once {τ : Type} (mode : AnswerMode) (depth : Nat) (calls : List (Call τ)) :
    ∃ (turns : List (Scene τ)) (n : Stage τ), Nest.Run (Nest.start mode) turns n ∧ n.running = [] ∧
      Nest.Within 0 (calls.filterMap Call.act?) turns ∧
      n.tracker.Mirrors (makeCalls (perform depth) calls (start mode)).2.tracker ∧
      ((makeCalls (perform depth) calls (start mode)).2.ran.map Ran.told).Perm
        ((Nest.requests turns).flatMap fun e => (Nest.starts e.2.number turns).map told) ∧
      ∀ id r, (id, r) ∈ Nest.requests turns →
        Nest.Ending mode turns n id r (Nest.starts r.number turns) := by
  obtain ⟨turns, n, hrun, hr, hw, hm, hp⟩ := makeCalls_perform mode depth calls
  refine ⟨turns, n, hrun, hr, hw, hm, ?_, fun id r he => hrun.ending hr he⟩
  have hstarted := hp.trans (hrun.started_perm.map told)
  rw [List.map_flatMap] at hstarted
  exact hstarted

end Switchboard
