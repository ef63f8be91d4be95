import Mathlib.Data.List.Nodup
import Switchboard.Subscriptions

/-!
# Subscriptions that come and go

What `subscribe`, `unsubscribe` and `dropAll` make of each single subscription.
-/

namespace Switchboard.Subscriptions

variable {s : Subscriptions} {a : Address} {command : String}

/-- No command is listed twice for a consumer. -/
def Distinct (s : Subscriptions) : Prop := ∀ a, (s.of a).Nodup

theorem distinct_empty : empty.Distinct := fun _ => List.nodup_nil

theorem of_of_get? {set : List String} (h : s.sets.get? a = some set) : s.of a = set := by
  rw [of, h]
  rfl

theorem of_of_get?_eq_none (h : s.sets.get? a = none) : s.of a = [] := by
  rw [of, h]
  rfl

theorem of_insert (consumer a : Address) (set : List String) :
    of ⟨s.sets.insert consumer set⟩ a = if a = consumer then set else s.of a := by
  unfold of
  rw [Dictionary.get?_insert]
  split <;> rfl

theorem of_erase (consumer a : Address) :
    of ⟨s.sets.erase consumer⟩ a = if a = consumer then [] else s.of a := by
  unfold of
  rw [Dictionary.get?_erase]
  split <;> rfl

theorem of_unsubscribe (consumer a : Address) (name : String) : (s.unsubscribe consumer name).2.of a =
    if a = consumer then (s.of consumer).erase name else s.of a := by
  unfold unsubscribe
  cases hs : s.sets.get? consumer with
  | none =>
    by_cases ha : a = consumer
    · rw [if_pos ha, ha, of_of_get?_eq_none hs, List.erase_nil]
    · rw [if_neg ha]
  | some set =>
    dsimp only
    rw [of_of_get? hs]
    split
    · next he => rw [of_erase, List.isEmpty_iff.mp he]
    · rw [of_insert]

theorem Distinct.subscribe (h : s.Distinct) (consumer : Address) (name : String) :
    (s.subscribe consumer name).2.Distinct := fun a => by
  rw [Subscriptions.subscribe, of_insert]
  split
  · exact (h consumer).insert
  · exact h a

theorem Distinct.unsubscribe (h : s.Distinct) (consumer : Address) (name : String) :
    (s.unsubscribe consumer name).2.Distinct := fun a => by
  rw [of_unsubscribe]
  split
  · exact (h consumer).erase name
  · exact h a

theorem Distinct.dropAll (h : s.Distinct) (consumer : Address) : (s.dropAll consumer).Distinct := fun a => by
  rw [Subscriptions.dropAll, of_erase]
  split
  · exact List.nodup_nil
  · exact h a

/-- No consumer is kept with an empty set. -/
def Occupied (s : Subscriptions) : Prop := ∀ a set, s.sets.get? a = some set → set ≠ []

theorem occupied_empty : empty.Occupied := by
  intro a set h
  cases h

theorem Occupied.insert (h : s.Occupied) (consumer : Address) {set : List String} (hset : set ≠ []) :
    Occupied ⟨s.sets.insert consumer set⟩ := by
  intro a set' hs
  simp only [Dictionary.get?_insert] at hs
  by_cases ha : a = consumer
  · rw [if_pos ha] at hs
    cases hs
    exact hset
  · rw [if_neg ha] at hs
    exact h a set' hs

theorem Occupied.erase (h : s.Occupied) (consumer : Address) : Occupied ⟨s.sets.erase consumer⟩ := by
  intro a set hs
  simp only [Dictionary.get?_erase] at hs
  by_cases ha : a = consumer
  · rw [if_pos ha] at hs
    cases hs
  · rw [if_neg ha] at hs
    exact h a set hs

theorem Occupied.subscribe (h : s.Occupied) (consumer : Address) (name : String) :
    (s.subscribe consumer name).2.Occupied :=
  h.insert consumer (List.ne_nil_of_mem (List.mem_insert_self (a := name)))

theorem Occupied.unsubscribe (h : s.Occupied) (consumer : Address) (name : String) :
    (s.unsubscribe consumer name).2.Occupied := by
  unfold Subscriptions.unsubscribe
  cases s.sets.get? consumer with
  | none => exact h
  | some old =>
    dsimp only
    by_cases he : (old.erase name).isEmpty = true
    · rw [if_pos he]
      exact h.erase consumer
    · rw [if_neg he]
      exact h.insert consumer fun hn => he (List.isEmpty_iff.mpr hn)

/-- A consumer that has a set has a subscription. -/
theorem Occupied.exists_command (h : s.Occupied) (ha : s.sets.contains a = true) :
    ∃ command, s.isSubscribed a command = true := by
  obtain ⟨set, hs⟩ := (s.sets.contains_iff a).mp ha
  cases set with
  | nil => exact absurd rfl (h a [] hs)
  | cons command rest => exact ⟨command, by simp [isSubscribed, of_of_get? hs]⟩

theorem isSubscribed_iff : s.isSubscribed a command = true ↔ command ∈ s.of a := by
  rw [isSubscribed, List.contains_iff_mem]

theorem isSubscribed_of_unsubscribe {consumer : Address} {name : String}
    (h : (s.unsubscribe consumer name).2.isSubscribed a command = true) : s.isSubscribed a command = true := by
  rw [isSubscribed_iff, of_unsubscribe] at h
  rw [isSubscribed_iff]
  split at h
  · next ha =>
    rw [ha]
    exact List.mem_of_mem_erase h
  · exact h

theorem isSubscribed_subscribe {consumer : Address} {name : String} :
    (s.subscribe consumer name).2.isSubscribed a command = true ↔
      (a = consumer ∧ command = name) ∨ s.isSubscribed a command = true := by
  rw [isSubscribed_iff, isSubscribed_iff, subscribe, of_insert]
  split
  · next ha => rw [List.mem_insert_iff, ha]; simp
  · next ha => simp [ha]

theorem Distinct.isSubscribed_unsubscribe (h : s.Distinct) {consumer : Address} {name : String} :
    (s.unsubscribe consumer name).2.isSubscribed a command = true ↔
      s.isSubscribed a command = true ∧ ¬ (a = consumer ∧ command = name) := by
  rw [isSubscribed_iff, isSubscribed_iff, of_unsubscribe]
  split
  · next ha => rw [(h consumer).mem_erase_iff, ha]; simp [and_comm]
  · next ha => simp [ha]

theorem isSubscribed_dropAll {consumer : Address} : (s.dropAll consumer).isSubscribed a command = true ↔
    s.isSubscribed a command = true ∧ a ≠ consumer := by
  rw [isSubscribed_iff, isSubscribed_iff, dropAll, of_erase]
  split
  · next ha => simp [ha]
  · next ha => simp [ha]

end Switchboard.Subscriptions
