import Switchboard.Proofs.Roster.Rotation

/-!
# Entries, index and cursor

A roster keeps its consumers three times: as a list, as a set of addresses and as a position in the list. After
any calls the three agree (`dependable_calls`), so that no call finds the one at odds with the other: who is
registered can be served and removed, and a call that fails has changed nothing.
-/

namespace Switchboard.Roster

/-- What callers may depend on. -/
structure Dependable (r : Roster) : Prop extends r.WellFormed where
  contains_eq : ∀ a, r.contains a = r.entries.any (·.address = a)
  add_cases : ∀ e, (r.contains e.address = true ∧ r.add e = (.error .consumerAlreadyExists, r)) ∨
    (r.contains e.address = false ∧ (r.add e).1 = .ok () ∧ (r.add e).2.entries = r.entries ++ [e])
  /-- The turn is in bounds unless there is nobody. -/
  next_cases : (r.entries = [] ∧ r.next = (.error .consumerNotFound, r)) ∨
    ∃ e, r.entries[r.turn]? = some e ∧ r.contains e.address = true ∧
      r.next = (.ok e, { r with cursor := r.turn + 1 })
  remove_cases : ∀ a, (r.contains a = false ∧ r.remove a = (.error .consumerNotFound, r)) ∨
    ∃ e, e ∈ r.entries ∧ e.address = a ∧ (r.remove a).1 = .ok e
  order_remove : ∀ a, (r.remove a).2.order = r.order.filter fun e => e.address ≠ a
  /-- The cursor moves back by one for each entry that leaves in front of it. -/
  cursor_remove : ∀ a, (r.remove a).2.cursor + ((r.entries.take r.cursor).filter (·.address = a)).length = r.cursor

section
variable {r : Roster}

theorem WellFormed.contains_eq (h : r.WellFormed) (a : Address) :
    r.contains a = r.entries.any (·.address = a) := by
  rw [Bool.eq_iff_iff, h.contains_iff]
  simp [addresses]

theorem WellFormed.next_of_turn (h : r.WellFormed) : (r.entries = [] ∧ r.next = (.error .consumerNotFound, r)) ∨
    ∃ e, r.entries[r.turn]? = some e ∧ r.contains e.address = true ∧
      r.next = (.ok e, { r with cursor := r.turn + 1 }) := by
  unfold Roster.next
  cases he : r.entries[r.turn]? with
  | none =>
    -- behind the last entry the turn falls back to 0, so only without entries it is out of bounds
    refine .inl ⟨?_, rfl⟩
    have hle := List.getElem?_eq_none_iff.mp he
    unfold turn at hle
    apply List.length_eq_zero_iff.mp
    split at hle <;> omega
  | some e =>
    have hm : e.address ∈ r.addresses := List.mem_map_of_mem (List.mem_of_getElem? he)
    exact .inr ⟨e, rfl, (h.contains_iff e.address).mpr hm, rfl⟩

theorem WellFormed.cursor_add_left (h : r.WellFormed) (a : Address) :
    (r.remove a).2.cursor + ((r.entries.take r.cursor).filter (·.address = a)).length = r.cursor := by
  have hl : (r.entries.take r.cursor).length = r.cursor := List.length_take_of_le h.cursor_le
  have hs := List.length_eq_length_filter_add (l := r.entries.take r.cursor) (·.address = a)
  rw [h.cursor_remove]
  simp only [ne_eq, decide_not]
  omega

theorem WellFormed.dependable (h : r.WellFormed) : r.Dependable := by
  constructor
  case toWellFormed => exact h
  case contains_eq => exact h.contains_eq
  case next_cases => exact h.next_of_turn
  case order_remove => exact h.order_remove
  case cursor_remove => exact h.cursor_add_left
  case add_cases =>
    intro e
    unfold Roster.add
    by_cases hc : r.contains e.address = true
    · simp [hc]
    · simp [hc]
  case remove_cases =>
    intro a
    by_cases hc : r.contains a = true
    · obtain ⟨e, he, ha, hr⟩ := h.remove_of_contains hc
      exact .inr ⟨e, List.mem_of_getElem? he, ha, by rw [hr]⟩
    · have hn := Bool.eq_false_iff.mpr hc
      exact .inl ⟨hn, remove_of_not_contains hn⟩

end

/-- **The parts of a roster agree** after any calls. To list the consumers is to read the entries. -/
theorem dependable_calls (cs : List Call) : (empty.calls cs).Dependable :=
  (wellFormed_empty.calls cs).dependable

end Switchboard.Roster
