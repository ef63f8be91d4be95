/-!
# Histories

`Since p q` says of a list of events, the oldest first, that `p` held of one of them and `q` of none
behind it. One more event decides it anew or leaves it as it was (`since_snoc`).
-/

namespace Switchboard

variable {α : Type}

def Since (p q : α → Prop) (xs : List α) : Prop :=
  ∃ past x future, xs = past ++ x :: future ∧ p x ∧ ∀ y ∈ future, ¬ q y

theorem snoc_split {xs past future : List α} {x y : α} (h : xs ++ [x] = past ++ y :: future) :
    (xs = past ∧ x = y) ∨ ∃ future', future = future' ++ [x] ∧ xs = past ++ y :: future' := by
  rcases List.eq_nil_or_concat future with rfl | ⟨future', z, rfl⟩
  · obtain ⟨hxs, hx⟩ := List.append_inj' h rfl
    exact .inl ⟨hxs, List.singleton_inj.mp hx⟩
  · have h' : xs ++ [x] = (past ++ y :: future') ++ [z] := by simpa using h
    obtain ⟨hxs, hx⟩ := List.append_inj' h' rfl
    rw [List.singleton_inj.mp hx]
    exact .inr ⟨future', List.concat_eq_append, hxs⟩

/-- What is numbered from 1 has one number more. -/
theorem map_range'_snoc (f : Nat → α) (n : Nat) :
    (List.range' 1 (n + 1)).map f = (List.range' 1 n).map f ++ [f (n + 1)] := by
  rw [List.range'_concat, List.map_append, Nat.one_mul, Nat.add_comm 1 n]
  rfl

theorem not_since_nil (p q : α → Prop) : ¬ Since p q [] := by
  rintro ⟨past, x, future, h, -⟩
  simp at h

theorem since_snoc {p q : α → Prop} {xs : List α} {x : α} :
    Since p q (xs ++ [x]) ↔ p x ∨ (Since p q xs ∧ ¬ q x) := by
  constructor
  · rintro ⟨past, y, future, h, hp, hq⟩
    rcases snoc_split h with ⟨-, rfl⟩ | ⟨future', rfl, hxs⟩
    · exact .inl hp
    · refine .inr ⟨⟨past, y, future', hxs, hp, fun z hz => hq z (List.mem_append_left _ hz)⟩, ?_⟩
      exact hq x (by simp)
  · rintro (hp | ⟨⟨past, y, future, rfl, hp, hq⟩, hx⟩)
    · exact ⟨xs, x, [], rfl, hp, by simp⟩
    · refine ⟨past, y, future ++ [x], by simp, hp, fun z hz => ?_⟩
      rcases List.mem_append.mp hz with hz | hz
      · exact hq z hz
      · rw [List.mem_singleton.mp hz]; exact hx

theorem since_congr {p q p' q' : α → Prop} {xs : List α} (hp : ∀ x ∈ xs, (p x ↔ p' x))
    (hq : ∀ x ∈ xs, (q x ↔ q' x)) : Since p q xs ↔ Since p' q' xs := by
  constructor
  · rintro ⟨past, x, future, rfl, hx, hy⟩
    exact ⟨past, x, future, rfl, (hp x (by simp)).mp hx, fun y hm h => hy y hm ((hq y (by simp [hm])).mpr h)⟩
  · rintro ⟨past, x, future, rfl, hx, hy⟩
    exact ⟨past, x, future, rfl, (hp x (by simp)).mpr hx, fun y hm h => hy y hm ((hq y (by simp [hm])).mp h)⟩

end Switchboard
