/-!
# Fields

A text cut at every separator. There is always a first field, possibly empty; `join` puts the
separators back and undoes `split`.
-/

namespace Switchboard.Fields

def split (sep : Char) : List Char → List Char × List (List Char)
  | [] => ([], [])
  | c :: cs =>
    let r := split sep cs
    if c = sep then ([], r.1 :: r.2) else (c :: r.1, r.2)

def join (sep : Char) (first : List Char) (others : List (List Char)) : List Char :=
  first ++ others.flatMap (sep :: ·)

@[simp] theorem split_nil (sep : Char) : split sep [] = ([], []) := rfl

theorem split_cons_sep (sep : Char) (cs : List Char) :
    split sep (sep :: cs) = ([], (split sep cs).1 :: (split sep cs).2) := by
  simp [split]

theorem split_cons {sep c : Char} (h : c ≠ sep) (cs : List Char) :
    split sep (c :: cs) = (c :: (split sep cs).1, (split sep cs).2) := by
  simp [split, h]

theorem join_split (sep : Char) (cs : List Char) :
    join sep (split sep cs).1 (split sep cs).2 = cs := by
  induction cs with
  | nil => rfl
  | cons c cs ih =>
    by_cases h : c = sep
    · subst h
      simpa [split_cons_sep, join] using ih
    · simpa [split_cons h, join] using ih

theorem split_append {sep : Char} {f : List Char} (h : sep ∉ f) (cs : List Char) :
    split sep (f ++ cs) = (f ++ (split sep cs).1, (split sep cs).2) := by
  induction f with
  | nil => rfl
  | cons c f ih =>
    have hc : c ≠ sep := fun e => h (e ▸ List.mem_cons_self)
    rw [List.cons_append, split_cons hc, ih fun hm => h (List.mem_cons_of_mem _ hm)]
    rfl

theorem split_join {sep : Char} {first : List Char} {others : List (List Char)}
    (hf : sep ∉ first) (ho : ∀ f ∈ others, sep ∉ f) :
    split sep (join sep first others) = (first, others) := by
  induction others generalizing first with
  | nil => simpa [join] using split_append hf []
  | cons f fs ih =>
    have := ih (ho f List.mem_cons_self) fun g hg => ho g (List.mem_cons_of_mem _ hg)
    simp only [join, List.flatMap_cons] at this ⊢
    rw [split_append hf, List.cons_append, split_cons_sep, this]
    simp

theorem not_mem_split (sep : Char) (cs : List Char) :
    sep ∉ (split sep cs).1 ∧ ∀ f ∈ (split sep cs).2, sep ∉ f := by
  induction cs with
  | nil => simp
  | cons c cs ih =>
    by_cases h : c = sep
    · subst h
      rw [split_cons_sep]
      exact ⟨List.not_mem_nil, fun f hf => by
        rcases List.mem_cons.mp hf with rfl | hf
        · exact ih.1
        · exact ih.2 f hf⟩
    · rw [split_cons h]
      refine ⟨fun hm => ?_, ih.2⟩
      rcases List.mem_cons.mp hm with hm | hm
      · exact h hm.symm
      · exact ih.1 hm

end Switchboard.Fields
