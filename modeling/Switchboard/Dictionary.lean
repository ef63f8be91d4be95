/-!
# Dictionaries

Finite maps with distinct keys, kept as a list of entries. The view is `get?`; the main statements
say what `insert`, `erase` and `filter` do to it.
-/

namespace Switchboard

structure Dictionary (κ : Type) (ν : Type) where
  entries : List (κ × ν)
  distinct : entries.Pairwise (fun p q => p.1 ≠ q.1)

namespace Dictionary

variable {κ ν : Type}

@[ext] theorem ext {d e : Dictionary κ ν} (h : d.entries = e.entries) : d = e := by
  cases d; cases e; cases h; rfl

instance [DecidableEq κ] [DecidableEq ν] : DecidableEq (Dictionary κ ν) := fun d e =>
  if h : d.entries = e.entries then isTrue (ext h) else isFalse fun he => h (he ▸ rfl)

def empty : Dictionary κ ν := ⟨[], .nil⟩

instance : Inhabited (Dictionary κ ν) := ⟨empty⟩

def keys (d : Dictionary κ ν) : List κ := d.entries.map Prod.fst

def size (d : Dictionary κ ν) : Nat := d.entries.length

def isEmpty (d : Dictionary κ ν) : Bool := d.entries.isEmpty

def filter (p : κ → ν → Bool) (d : Dictionary κ ν) : Dictionary κ ν :=
  ⟨d.entries.filter (fun e => p e.1 e.2), d.distinct.filter _⟩

theorem keys_nodup (d : Dictionary κ ν) : d.keys.Nodup := List.pairwise_map.mpr d.distinct

theorem length_keys (d : Dictionary κ ν) : d.keys.length = d.size := List.length_map ..

section

variable [DecidableEq κ]

def get? (d : Dictionary κ ν) (k : κ) : Option ν :=
  (d.entries.find? (fun e => e.1 = k)).map Prod.snd

def contains (d : Dictionary κ ν) (k : κ) : Bool := d.entries.any (fun e => e.1 = k)

def erase (d : Dictionary κ ν) (k : κ) : Dictionary κ ν := d.filter (fun k' _ => k' ≠ k)

/-- Bind `k` to `v`, in place of whatever it was bound to. -/
def insert (d : Dictionary κ ν) (k : κ) (v : ν) : Dictionary κ ν where
  entries := (k, v) :: (d.erase k).entries
  distinct := by
    refine .cons (fun e he => ?_) (d.erase k).distinct
    have := (List.mem_filter.1 he).2
    exact fun hk => by simp [← hk] at this

/-- Insert the pairs from left to right, so that a later pair wins over an earlier one. -/
def ofList (ps : List (κ × ν)) : Dictionary κ ν := ps.foldl (fun d p => d.insert p.1 p.2) empty

@[simp] theorem get?_empty (k : κ) : (empty : Dictionary κ ν).get? k = none := rfl

/-- The entries of a key are the one that `get?` finds. -/
theorem filter_key (d : Dictionary κ ν) (k : κ) :
    d.entries.filter (·.1 = k) = ((d.get? k).map (k, ·)).toList := by
  obtain ⟨es, hd⟩ := d
  unfold get?
  dsimp only
  induction es with
  | nil => rfl
  | cons e es ih =>
    rw [List.pairwise_cons] at hd
    by_cases hk : e.1 = k
    · subst hk
      have hes : es.filter (·.1 = e.1) = [] :=
        List.filter_eq_nil_iff.mpr fun e' he' => by simpa using (hd.1 e' he').symm
      simp [hes]
    · simpa [hk] using ih hd.2

theorem mem_entries_iff (d : Dictionary κ ν) (k : κ) (v : ν) : (k, v) ∈ d.entries ↔ d.get? k = some v := by
  have h : (k, v) ∈ d.entries ↔ (k, v) ∈ d.entries.filter (·.1 = k) := by simp
  rw [h, filter_key]
  simp

theorem get?_filter (d : Dictionary κ ν) (p : κ → ν → Bool) (k : κ) :
    (d.filter p).get? k = (d.get? k).filter (p k) := by
  have h := filter_key (d.filter p) k
  have h' : (d.filter p).entries.filter (·.1 = k) = (d.entries.filter (·.1 = k)).filter fun e => p e.1 e.2 := by
    simp only [filter, List.filter_filter, Bool.and_comm]
  rw [h', filter_key] at h
  cases hg : d.get? k with
  | none =>
    rw [hg] at h
    cases hf : (d.filter p).get? k with
    | none => rfl
    | some v => rw [hf] at h; cases h
  | some v =>
    rw [hg] at h
    cases hp : p k v <;> cases hf : (d.filter p).get? k <;> simp_all [Option.filter_some]

theorem get?_of_filter {d : Dictionary κ ν} {p : κ → ν → Bool} {k : κ} {v : ν}
    (h : (d.filter p).get? k = some v) : d.get? k = some v := by
  rw [get?_filter, Option.filter_eq_some_iff] at h
  exact h.1

theorem isEmpty_iff (d : Dictionary κ ν) : d.isEmpty = true ↔ ∀ k, d.get? k = none := by
  constructor
  · intro h k
    rw [get?, List.isEmpty_iff.mp h]
    rfl
  · intro h
    refine List.isEmpty_iff.mpr (List.eq_nil_iff_forall_not_mem.mpr fun e he => ?_)
    have hf := filter_key d e.1
    rw [h] at hf
    exact List.filter_eq_nil_iff.mp hf e he (by simp)

theorem get?_erase (d : Dictionary κ ν) (k k' : κ) :
    (d.erase k).get? k' = if k' = k then none else d.get? k' := by
  rw [erase, get?_filter]
  by_cases hk : k' = k
  · cases d.get? k' <;> simp [hk]
  · cases d.get? k' <;> simp [hk]

theorem get?_insert (d : Dictionary κ ν) (k : κ) (v : ν) (k' : κ) :
    (d.insert k v).get? k' = if k' = k then some v else d.get? k' := by
  by_cases h : k' = k
  · subst h; simp [insert, get?]
  · have h' : ¬ k = k' := fun e => h e.symm
    have := get?_erase d k k'
    simp only [get?, h, ite_false] at this ⊢
    simp [insert, h', this]

theorem contains_iff (d : Dictionary κ ν) (k : κ) :
    d.contains k = true ↔ ∃ v, d.get? k = some v := by
  simp only [contains, get?, List.any_eq_true, decide_eq_true_eq, Option.map_eq_some_iff]
  constructor
  · rintro ⟨e, he, hk⟩
    cases h : d.entries.find? (fun e => decide (e.1 = k)) with
    | none => exact absurd hk (by simpa using List.find?_eq_none.1 h e he)
    | some e' => exact ⟨e'.2, e', rfl, rfl⟩
  · rintro ⟨v, e, he, -⟩
    exact ⟨e, List.mem_of_find?_eq_some he, by simpa using List.find?_some he⟩

theorem mem_keys_iff (d : Dictionary κ ν) (k : κ) : k ∈ d.keys ↔ d.contains k = true := by
  simp [keys, contains]

theorem erase_comm (d : Dictionary κ ν) (k k' : κ) : (d.erase k).erase k' = (d.erase k').erase k := by
  apply ext
  simp only [erase, filter, List.filter_filter]
  exact List.filter_congr fun e _ => Bool.and_comm _ _

theorem erase_erase (d : Dictionary κ ν) (k : κ) : (d.erase k).erase k = d.erase k := by
  apply ext
  simp [erase, filter, List.filter_filter]

end

end Dictionary

end Switchboard
