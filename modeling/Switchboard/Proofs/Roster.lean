import Mathlib.Data.List.InsertIdx
import Mathlib.Data.List.Nodup
import Switchboard.Roster

/-!
# The roster as a set of consumers

What `add`, `remove` and `next` keep of a roster: addresses are distinct, the index is their set, and the
cursor is not behind the last entry.
-/

namespace Switchboard.Roster

def addresses (r : Roster) : List Address := r.entries.map (·.address)

structure WellFormed (r : Roster) : Prop where
  nodup : r.addresses.Nodup
  index_nodup : r.index.Nodup
  mem_index : ∀ a, a ∈ r.index ↔ a ∈ r.addresses
  cursor_le : r.cursor ≤ r.entries.length

theorem wellFormed_empty : empty.WellFormed := by
  refine ⟨List.nodup_nil, List.nodup_nil, fun a => Iff.rfl, Nat.le_refl _⟩

section
variable {r : Roster}

theorem WellFormed.contains_iff (h : r.WellFormed) (a : Address) :
    r.contains a = true ↔ a ∈ r.addresses := by
  unfold contains
  rw [List.contains_iff_mem, h.mem_index]

theorem WellFormed.add (h : r.WellFormed) {e : Endpoint} (hc : r.contains e.address = false) :
    ({ r with entries := r.entries ++ [e], index := e.address :: r.index } : Roster).WellFormed := by
  have hn : e.address ∉ r.addresses := by
    rw [← h.contains_iff, hc]; exact Bool.false_ne_true
  have ha : ({ r with entries := r.entries ++ [e], index := e.address :: r.index } : Roster).addresses =
      r.addresses ++ [e.address] := by simp [addresses]
  refine ⟨?_, ?_, fun a => ?_, ?_⟩
  · rw [ha]
    exact List.nodup_append.mpr ⟨h.nodup, List.nodup_singleton _, fun a ha b hb => by
      rw [List.mem_singleton.mp hb]
      exact fun e' => hn (e' ▸ ha)⟩
  · exact List.nodup_cons.mpr ⟨by rw [h.mem_index]; exact hn, h.index_nodup⟩
  · rw [ha]
    simp only [List.mem_cons, List.mem_append, List.not_mem_nil, or_false, h.mem_index]
    exact Or.comm
  · have := h.cursor_le
    simp only [List.length_append, List.length_singleton]
    omega

theorem WellFormed.next (h : r.WellFormed) {e : Endpoint} (he : r.entries[r.turn]? = some e) :
    ({ r with cursor := r.turn + 1 } : Roster).WellFormed := by
  obtain ⟨ht, -⟩ := List.getElem?_eq_some_iff.mp he
  exact ⟨h.nodup, h.index_nodup, h.mem_index, ht⟩

/-- A consumer that is not registered cannot be removed. -/
theorem remove_of_not_contains {a : Address} (hc : r.contains a = false) :
    r.remove a = (.error .consumerNotFound, r) := by
  unfold remove
  simp [hc]

theorem mem_of_mem_remove {a : Address} {e : Endpoint} (he : e ∈ (r.remove a).2.entries) : e ∈ r.entries := by
  revert he
  unfold remove
  split
  · dsimp only
    split
    · exact id
    · exact fun he => List.mem_of_mem_eraseIdx he
  · exact id

theorem WellFormed.findIdx_lt (h : r.WellFormed) {a : Address} (hc : r.contains a = true) :
    r.entries.findIdx (fun e => e.address = a) < r.entries.length := by
  rw [List.findIdx_lt_length]
  obtain ⟨e, he, ha⟩ := List.mem_map.mp ((h.contains_iff a).mp hc)
  exact ⟨e, he, by simpa using ha⟩

theorem WellFormed.remove_of_contains (h : r.WellFormed) {a : Address} (hc : r.contains a = true) :
    ∃ e, r.entries[r.entries.findIdx (fun e => e.address = a)]? = some e ∧ e.address = a ∧
      r.remove a = (.ok e, ⟨r.entries.eraseIdx (r.entries.findIdx (fun e => e.address = a)),
        r.index.erase a,
        if r.entries.findIdx (fun e => e.address = a) < r.cursor then r.cursor - 1 else r.cursor⟩) := by
  have hlt := h.findIdx_lt hc
  refine ⟨_, List.getElem?_eq_getElem hlt, ?_, ?_⟩
  · simpa using List.findIdx_getElem (w := hlt)
  · unfold remove
    simp only [hc, ite_true, List.getElem?_eq_getElem hlt]

theorem addresses_eraseIdx (es : List Endpoint) (a : Address) :
    (es.eraseIdx (es.findIdx (fun e => e.address = a))).map (·.address) =
      (es.map (·.address)).erase a := by
  rw [List.erase_eq_eraseIdx_of_idxOf rfl, List.eraseIdx_map, List.idxOf, List.findIdx_map]
  rfl

theorem WellFormed.addresses_remove (h : r.WellFormed) (a : Address) :
    (r.remove a).2.addresses = r.addresses.erase a := by
  cases hc : r.contains a with
  | false =>
    rw [remove_of_not_contains hc]
    refine (List.erase_of_not_mem ?_).symm
    rw [← h.contains_iff, hc]; exact Bool.false_ne_true
  | true =>
    obtain ⟨e, -, -, hr⟩ := h.remove_of_contains hc
    rw [hr]
    exact addresses_eraseIdx r.entries a

theorem WellFormed.remove (h : r.WellFormed) (a : Address) : (r.remove a).2.WellFormed := by
  have ha := h.addresses_remove a
  cases hc : r.contains a with
  | false => rw [remove_of_not_contains hc]; exact h
  | true =>
    have hlt := h.findIdx_lt hc
    obtain ⟨e, -, -, hr⟩ := h.remove_of_contains hc
    rw [hr] at ha ⊢
    refine ⟨?_, h.index_nodup.erase a, fun a' => ?_, ?_⟩
    · rw [ha]; exact h.nodup.erase a
    · rw [ha, h.index_nodup.mem_erase_iff, h.nodup.mem_erase_iff, h.mem_index]
    · have := h.cursor_le
      simp only [List.length_eraseIdx, hlt, ite_true]
      split <;> omega

/-- Among distinct addresses, to cut out the first entry of an address is to keep those of others. -/
theorem eraseIdx_findIdx (a : Address) : ∀ es : List Endpoint, (es.map (·.address)).Nodup →
    es.eraseIdx (es.findIdx (fun e => e.address = a)) = es.filter (fun e => e.address ≠ a)
  | [], _ => rfl
  | e :: es, hn => by
    obtain ⟨hm, hn⟩ := List.nodup_cons.mp hn
    rw [List.findIdx_cons, List.filter_cons]
    by_cases ha : e.address = a
    · simp only [ha, decide_true, cond_true, List.eraseIdx_zero, List.tail_cons, ne_eq, not_true_eq_false,
        decide_false, Bool.false_eq_true, ite_false]
      refine (List.filter_eq_self.mpr fun e' he' => ?_).symm
      rw [decide_eq_true_iff]
      exact fun h => hm (List.mem_map.mpr ⟨e', he', h.trans ha.symm⟩)
    · simp only [ha, decide_false, cond_false, List.eraseIdx_cons_succ, ne_eq, not_false_eq_true, decide_true,
        ite_true]
      rw [eraseIdx_findIdx a es hn]

theorem WellFormed.entries_remove (h : r.WellFormed) (a : Address) :
    (r.remove a).2.entries = r.entries.filter (fun e => e.address ≠ a) := by
  cases hc : r.contains a with
  | false =>
    rw [remove_of_not_contains hc]
    refine (List.filter_eq_self.mpr fun e he => ?_).symm
    rw [decide_eq_true_iff]
    rintro rfl
    rw [(h.contains_iff e.address).mpr (List.mem_map_of_mem he)] at hc
    cases hc
  | true =>
    obtain ⟨e, -, -, hr⟩ := h.remove_of_contains hc
    rw [hr]
    exact eraseIdx_findIdx a r.entries h.nodup

theorem WellFormed.contains_remove (h : r.WellFormed) (a a' : Address) :
    (r.remove a).2.contains a' = true ↔ a' ≠ a ∧ r.contains a' = true := by
  rw [(h.remove a).contains_iff, h.addresses_remove, h.nodup.mem_erase_iff, h.contains_iff]

end

end Switchboard.Roster
