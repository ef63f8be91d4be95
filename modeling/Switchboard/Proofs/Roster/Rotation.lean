import Switchboard.Proofs.Roster

/-!
# The serving order

`order` lists the consumers as `next` will serve them. Whoever joins is put in, whoever leaves is taken
out, and whoever is served goes to the end; the others keep their places among one another. So a consumer
that is served twice has waited for every other one that stayed (`served_once_between`).
-/

namespace Switchboard.Roster

/-! ## What the operations do to the order -/

section
variable {r : Roster}

theorem order_perm (r : Roster) : r.order.Perm r.entries := by
  unfold order
  rw [List.perm_append_comm.congr_left, List.take_append_drop]

theorem WellFormed.order_nodup (h : r.WellFormed) : (r.order.map (·.address)).Nodup :=
  ((order_perm r).map _).nodup_iff.mpr h.nodup

theorem WellFormed.contains_iff_order (h : r.WellFormed) (a : Address) :
    r.contains a = true ↔ a ∈ r.order.map (·.address) := by
  rw [h.contains_iff, addresses, ((order_perm r).map _).mem_iff]

/-- The head of the order is served and goes to its end. -/
theorem next_cases (r : Roster) : (r.order = [] ∧ r.next = (.error .consumerNotFound, r)) ∨
    ∃ e es r', r.order = e :: es ∧ r.next = (.ok e, r') ∧ r'.order = es ++ [e] := by
  unfold next turn order
  by_cases hc : r.cursor < r.entries.length
  · right
    refine ⟨r.entries[r.cursor], r.entries.drop (r.cursor + 1) ++ r.entries.take r.cursor,
      { r with cursor := r.cursor + 1 }, ?_, ?_, ?_⟩
    · rw [List.drop_eq_getElem_cons hc, List.cons_append]
    · simp only [hc, ite_true, List.getElem?_eq_getElem hc]
    · rw [List.append_assoc, ← List.take_succ_eq_append_getElem hc]
  · -- past the last entry the order is that of the entries
    have hd : r.entries.drop r.cursor = [] := List.drop_eq_nil_of_le (Nat.le_of_not_lt hc)
    have ht : r.entries.take r.cursor = r.entries := List.take_of_length_le (Nat.le_of_not_lt hc)
    rw [if_neg hc, hd, ht, List.nil_append]
    cases he : r.entries with
    | nil => exact .inl ⟨rfl, rfl⟩
    | cons e es => exact .inr ⟨e, es, { r with cursor := 1 }, rfl, by simp [he], by simp [he]⟩

theorem WellFormed.order_add (h : r.WellFormed) (e : Endpoint) :
    (r.add e).2 = r ∨ ∃ front back, r.order = front ++ back ∧ (r.add e).2.order = front ++ e :: back := by
  unfold Roster.add
  split
  · exact .inl rfl
  · right
    refine ⟨_, _, rfl, ?_⟩
    unfold order
    rw [List.drop_append_of_le_length h.cursor_le, List.take_append_of_le_length h.cursor_le,
      List.append_assoc, List.singleton_append]

theorem WellFormed.cursor_remove (h : r.WellFormed) (a : Address) : (r.remove a).2.cursor =
    ((r.entries.take r.cursor).filter fun e => e.address ≠ a).length := by
  have hn : ((r.entries.take r.cursor).map (·.address)).Nodup :=
    h.nodup.sublist ((List.take_sublist _ _).map _)
  have hle := h.cursor_le
  rw [← eraseIdx_findIdx a _ hn, List.length_eraseIdx, List.findIdx_take, List.length_take]
  cases hc : r.contains a with
  | false =>
    have hf : r.entries.findIdx (fun e => e.address = a) = r.entries.length := by
      apply List.findIdx_eq_length.mpr
      intro e he
      apply decide_eq_false
      intro ha
      rw [(h.contains_iff a).mpr (ha ▸ List.mem_map_of_mem he)] at hc
      cases hc
    rw [remove_of_not_contains hc, hf]
    dsimp only
    split <;> omega
  | true =>
    obtain ⟨e, -, -, hr⟩ := h.remove_of_contains hc
    rw [hr]
    dsimp only
    split <;> split <;> omega

theorem WellFormed.order_remove (h : r.WellFormed) (a : Address) :
    (r.remove a).2.order = r.order.filter fun e => e.address ≠ a := by
  have hs : (r.remove a).2.entries = (r.entries.take r.cursor).filter (fun e => e.address ≠ a) ++
      (r.entries.drop r.cursor).filter (fun e => e.address ≠ a) := by
    rw [← List.filter_append, List.take_append_drop, h.entries_remove]
  unfold order
  rw [hs, h.cursor_remove, List.drop_left, List.take_left, ← List.filter_append]

end

/-! ## Calls -/

inductive Call where
  | add (e : Endpoint)
  | remove (a : Address)
  | next
deriving DecidableEq, Repr

/-- Whom a call serves, and the roster after it. A call that fails serves nobody. -/
def call (r : Roster) : Call → Option Address × Roster
  | .add e => (none, (r.add e).2)
  | .remove a => (none, (r.remove a).2)
  | .next => (r.next.1.toOption.map (·.address), r.next.2)

def calls (r : Roster) (cs : List Call) : Roster := cs.foldl (fun r c => (r.call c).2) r

/-- Whom the calls serve, one after the other. -/
def served : Roster → List Call → List Address
  | _, [] => []
  | r, c :: cs => (r.call c).1.toList ++ served (r.call c).2 cs

/-- Whether `a` is registered before the calls and after each of them. -/
def stays (a : Address) : Roster → List Call → Bool
  | r, [] => r.contains a
  | r, c :: cs => r.contains a && stays a (r.call c).2 cs

section
variable {r : Roster} {a : Address}

theorem WellFormed.call (h : r.WellFormed) (c : Call) : (r.call c).2.WellFormed := by
  cases c with
  | add e =>
    show (r.add e).2.WellFormed
    unfold Roster.add
    split
    · exact h
    · next hc => exact h.add (Bool.eq_false_iff.mpr hc)
  | remove a => exact h.remove a
  | next =>
    unfold Roster.call Roster.next
    cases he : r.entries[r.turn]? with
    | none => exact h
    | some e => exact h.next he

theorem WellFormed.calls (h : r.WellFormed) (cs : List Call) : (r.calls cs).WellFormed := by
  induction cs generalizing r with
  | nil => exact h
  | cons c cs ih => exact ih (h.call c)

theorem order_of_call {c : Call} (hs : (r.call c).1 = some a) :
    ∃ e es, e.address = a ∧ r.order = e :: es ∧ (r.call c).2.order = es ++ [e] := by
  cases c with
  | add e => cases hs
  | remove b => cases hs
  | next =>
    unfold Roster.call at hs ⊢
    rcases next_cases r with ⟨-, hn⟩ | ⟨e, es, r', ho, hn, ho'⟩
    · rw [hn] at hs; cases hs
    · rw [hn] at hs ⊢
      exact ⟨e, es, Option.some.inj hs, ho, ho'⟩

theorem contains_of_stays {cs : List Call} (h : stays a r cs = true) : r.contains a = true := by
  cases cs with
  | nil => exact h
  | cons c cs => exact (Bool.and_eq_true_iff.mp h).1

theorem not_served_cons {c : Call} {cs : List Call} (h : a ∉ r.served (c :: cs)) :
    (r.call c).1 ≠ some a ∧ a ∉ (r.call c).2.served cs := by
  rw [served, List.mem_append, not_or, Option.mem_toList] at h
  exact h

end

/-! ## Who comes before whom -/

/-- `x` will be served before `y`. -/
def Precedes (r : Roster) (x y : Address) : Prop := [x, y].Sublist (r.order.map (·.address))

section
variable {r : Roster} {x y : Address}

theorem sublist_of_cons {a : Address} {l : List Address} (h : [x, y].Sublist (a :: l)) (hx : x ≠ a) :
    [x, y].Sublist l := by
  rcases List.sublist_cons_iff.mp h with h | ⟨t, ht, -⟩
  · exact h
  · exact absurd (List.cons.inj ht).1 hx

theorem WellFormed.precedes_of_served (h : r.WellFormed) {c : Call} (hs : (r.call c).1 = some x)
    (hy : r.contains y = true) (hxy : y ≠ x) : (r.call c).2.Precedes y x := by
  obtain ⟨e, es, rfl, ho, ho'⟩ := order_of_call hs
  rw [h.contains_iff_order, ho, List.map_cons, List.mem_cons] at hy
  have hm : y ∈ es.map (·.address) := hy.resolve_left hxy
  unfold Precedes
  rw [ho', List.map_append]
  exact (List.singleton_sublist.mpr hm).append (List.Sublist.refl [e.address])

/-- Whoever comes behind another is not the next to be served. -/
theorem WellFormed.not_served (h : r.WellFormed) (hp : r.Precedes x y) (hxy : x ≠ y) (c : Call) :
    (r.call c).1 ≠ some y := by
  intro hs
  obtain ⟨e, es, rfl, ho, -⟩ := order_of_call hs
  have hn := h.order_nodup
  unfold Precedes at hp
  rw [ho, List.map_cons] at hp hn
  have hm : e.address ∈ es.map (·.address) := (sublist_of_cons hp hxy).subset (by simp)
  exact (List.nodup_cons.mp hn).1 hm

/-- A call that does not serve the first of two consumers, and removes neither, keeps their order. -/
theorem WellFormed.precedes_call (h : r.WellFormed) (hp : r.Precedes x y) {c : Call}
    (hs : (r.call c).1 ≠ some x) (hx : (r.call c).2.contains x = true) (hy : (r.call c).2.contains y = true) :
    (r.call c).2.Precedes x y := by
  cases c with
  | add e =>
    rcases h.order_add e with he | ⟨front, back, ho, ho'⟩
    · exact (congrArg (·.Precedes x y) he).mpr hp
    · unfold Precedes at hp ⊢
      rw [ho] at hp
      rw [Roster.call, ho']
      exact hp.trans (((List.sublist_cons_self e back).append_left front).map _)
  | remove a =>
    have hxa : x ≠ a := ((h.contains_remove a x).mp hx).1
    have hya : y ≠ a := ((h.contains_remove a y).mp hy).1
    have hf := List.Sublist.filter (fun b => b ≠ a) hp
    rw [List.filter_map] at hf
    unfold Precedes
    rw [Roster.call, h.order_remove]
    simpa [hxa, hya, Function.comp_def] using hf
  | next =>
    unfold Roster.call at hs ⊢
    rcases next_cases r with ⟨-, hn⟩ | ⟨e, es, r', ho, hn, ho'⟩
    · rw [hn]; exact hp
    · rw [hn] at hs ⊢
      have hne : x ≠ e.address := by
        intro he
        exact hs (congrArg some he.symm)
      unfold Precedes at hp ⊢
      rw [ho, List.map_cons] at hp
      rw [ho', List.map_append]
      exact (sublist_of_cons hp hne).trans (List.sublist_append_left _ _)

/-! ## Runs -/

-- In the next two, `y` is not served by the calls. As long as `y` comes before `x`, neither is `x`.
theorem WellFormed.count_served_behind (h : r.WellFormed) {cs : List Call} (hxy : x ≠ y)
    (hx : stays x r cs = true) (hy : stays y r cs = true) (hn : y ∉ r.served cs) (hp : r.Precedes y x) :
    (r.served cs).count x = 0 ∧ (r.calls cs).Precedes y x := by
  induction cs generalizing r with
  | nil => exact ⟨rfl, hp⟩
  | cons c cs ih =>
    obtain ⟨-, hx⟩ := Bool.and_eq_true_iff.mp hx
    obtain ⟨-, hy⟩ := Bool.and_eq_true_iff.mp hy
    obtain ⟨hc, hn⟩ := not_served_cons hn
    have hsx := h.not_served hp hxy.symm c
    have hp' := h.precedes_call hp hc (contains_of_stays hy) (contains_of_stays hx)
    obtain ⟨hz, hl⟩ := ih (h.call c) hx hy hn hp'
    refine ⟨?_, hl⟩
    rw [served, List.count_append, hz, Nat.add_zero]
    apply List.count_eq_zero.mpr
    intro hm
    exact hsx (by simpa using hm)

/-- If `x` comes before `y`, it is either still waiting or has been served once and is behind `y`. -/
theorem WellFormed.count_served_before (h : r.WellFormed) {cs : List Call} (hxy : x ≠ y)
    (hx : stays x r cs = true) (hy : stays y r cs = true) (hn : y ∉ r.served cs) (hp : r.Precedes x y) :
    (r.calls cs).Precedes x y ∨ ((r.served cs).count x = 1 ∧ (r.calls cs).Precedes y x) := by
  induction cs generalizing r with
  | nil => exact .inl hp
  | cons c cs ih =>
    have hcy := contains_of_stays hy
    obtain ⟨-, hx⟩ := Bool.and_eq_true_iff.mp hx
    obtain ⟨-, hy⟩ := Bool.and_eq_true_iff.mp hy
    obtain ⟨hc, hn⟩ := not_served_cons hn
    rw [served, List.count_append]
    by_cases hs : (r.call c).1 = some x
    · right
      have hp' := h.precedes_of_served hs hcy hxy.symm
      obtain ⟨hz, hl⟩ := (h.call c).count_served_behind hxy hx hy hn hp'
      refine ⟨?_, hl⟩
      rw [hz, hs]
      simp
    · have hz : (r.call c).1.toList.count x = 0 := by
        apply List.count_eq_zero.mpr
        intro hm
        exact hs (by simpa using hm)
      rw [hz, Nat.zero_add]
      apply ih (h.call c) hx hy hn
      exact h.precedes_call hp hs (contains_of_stays hx) (contains_of_stays hy)

end

/-- **Fairness.** Between two turns of `y` with none in between, every other consumer that stays registered
has exactly one, whoever joins or leaves. -/
theorem served_once_between (past cs : List Call) {x y : Address} (hxy : x ≠ y)
    (hx : stays x (empty.calls past) (.next :: cs) = true) (hy : stays y (empty.calls past) (.next :: cs) = true)
    (first : ((empty.calls past).call .next).1 = some y) (hn : y ∉ (empty.calls (past ++ [.next])).served cs)
    (second : ((empty.calls (past ++ .next :: cs)).call .next).1 = some y) :
    ((empty.calls (past ++ [.next])).served cs).count x = 1 := by
  have h : (empty.calls past).WellFormed := wellFormed_empty.calls past
  have hs : empty.calls (past ++ [.next]) = ((empty.calls past).call .next).2 := by
    rw [calls, List.foldl_append]; rfl
  have hl : empty.calls (past ++ .next :: cs) = ((empty.calls past).call .next).2.calls cs := by
    rw [calls, List.foldl_append]; rfl
  rw [hs] at hn ⊢
  rw [hl] at second
  -- once served, `y` is behind `x`; when it is served again it cannot be
  have hp := h.precedes_of_served first (contains_of_stays hx) hxy
  obtain ⟨-, hx⟩ := Bool.and_eq_true_iff.mp hx
  obtain ⟨-, hy⟩ := Bool.and_eq_true_iff.mp hy
  rcases (h.call .next).count_served_before hxy hx hy hn hp with hb | ⟨hc, -⟩
  · exact absurd second (((h.call .next).calls cs).not_served hb hxy .next)
  · exact hc

/-- In between, one consumer in front of the cursor leaves and another joins at the wrap-around. -/
theorem served_once_between_churn : ∃ past cs, stays "d" (empty.calls past) (.next :: cs) = true ∧
    stays "c" (empty.calls past) (.next :: cs) = true ∧ ((empty.calls past).call .next).1 = some "c" ∧
    ((empty.calls (past ++ .next :: cs)).call .next).1 = some "c" ∧
    (empty.calls (past ++ [.next])).served cs = ["d", "e"] ∧
    ((empty.calls (past ++ [.next])).served cs).count "d" = 1 := by
  let past : List Call := [.add ⟨"a", 0, .far⟩, .add ⟨"c", 1, .far⟩, .add ⟨"d", 2, .far⟩, .next]
  let cs : List Call := [.remove "a", .add ⟨"c", 3, .far⟩, .next, .add ⟨"e", 4, .far⟩, .remove "b", .next]
  have hx : stays "d" (empty.calls past) (.next :: cs) = true := by decide
  have hy : stays "c" (empty.calls past) (.next :: cs) = true := by decide
  have first : ((empty.calls past).call .next).1 = some "c" := by decide
  have second : ((empty.calls (past ++ .next :: cs)).call .next).1 = some "c" := by decide
  have hs : (empty.calls (past ++ [.next])).served cs = ["d", "e"] := by decide
  have hn : "c" ∉ (empty.calls (past ++ [.next])).served cs := by rw [hs]; decide
  exact ⟨past, cs, hx, hy, first, second, hs, served_once_between past cs (by decide) hx hy first hn second⟩

end Switchboard.Roster
