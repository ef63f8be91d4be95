import Mathlib.Data.Finset.Card
import Mathlib.Data.List.Induction
import Mathlib.Data.String.Basic
import Switchboard.Proofs.Subscriptions
import Switchboard.Proofs.Text.Order

/-!
# Subscriptions as pairs

A table of subscriptions stands for a set of pairs, each of a consumer and a command. It could also hold
consumers without commands, which the set knows nothing of; but a call that leaves none to its consumer
removes the entry, so that a call on the table is the call on the set (`Holds.call`). After any calls all
that the table shows is read off the set, and of one consumer it shows what the calls on this consumer
alone have left (`represents_calls`).
-/

namespace Switchboard

theorem pairwise_sortNames {names : List String} (h : names.Nodup) : (sortNames names).Pairwise (· < ·) := by
  have hs : (sortNames names).Pairwise fun m n => decide (m ≤ n) = true := by
    apply List.pairwise_mergeSort
    · intro l m n
      simpa using le_trans
    · intro m n
      simpa using le_total m n
  have hle : (sortNames names).Pairwise (· ≤ ·) := hs.imp of_decide_eq_true
  have hne : (sortNames names).Nodup := (List.mergeSort_perm names _).nodup_iff.mpr h
  exact hle.imp₂ (fun _ _ => lt_of_le_of_ne) hne

namespace Subscriptions

/-! ## Calls -/

inductive Call where
  | subscribe (consumer : Address) (command : String)
  | unsubscribe (consumer : Address) (command : String)
  | dropAll (consumer : Address)
deriving DecidableEq, Repr

/-- The consumer that a call is about. -/
def Call.consumer : Call → Address
  | subscribe a _ | unsubscribe a _ | dropAll a => a

def call (s : Subscriptions) : Call → Subscriptions
  | .subscribe a name => (s.subscribe a name).2
  | .unsubscribe a name => (s.unsubscribe a name).2
  | .dropAll a => s.dropAll a

def calls (s : Subscriptions) (cs : List Call) : Subscriptions := cs.foldl call s

theorem calls_snoc (s : Subscriptions) (cs : List Call) (c : Call) : s.calls (cs ++ [c]) = (s.calls cs).call c :=
  List.foldl_concat ..

/-! ## Calls on pairs -/

abbrev Pairs := Finset (Address × String)

def Call.change (ps : Pairs) : Call → Pairs
  | subscribe a name => insert (a, name) ps
  | unsubscribe a name => ps.erase (a, name)
  | dropAll a => ps.filter (·.1 ≠ a)

/-- The pairs that calls leave where there were none. -/
def pairs (cs : List Call) : Pairs := cs.foldl Call.change ∅

theorem pairs_snoc (cs : List Call) (c : Call) : pairs (cs ++ [c]) = c.change (pairs cs) :=
  List.foldl_concat ..

/-- The subscriptions are these pairs, and no entry is empty or names a command twice. -/
structure Holds (s : Subscriptions) (ps : Pairs) : Prop where
  distinct : s.Distinct
  occupied : s.Occupied
  subscribed_iff : ∀ a name, s.isSubscribed a name = true ↔ (a, name) ∈ ps

section
variable {s : Subscriptions} {ps : Pairs}

theorem holds_empty : empty.Holds ∅ := by
  refine ⟨distinct_empty, occupied_empty, fun a name => ?_⟩
  simp [isSubscribed, of, empty]

theorem Holds.call (h : s.Holds ps) (c : Call) : (s.call c).Holds (c.change ps) := by
  cases c with
  | subscribe a name =>
    refine ⟨h.distinct.subscribe a name, h.occupied.subscribe a name, fun a' name' => ?_⟩
    rw [Subscriptions.call, isSubscribed_subscribe, h.subscribed_iff, Call.change, Finset.mem_insert,
      Prod.mk.injEq]
  | unsubscribe a name =>
    refine ⟨h.distinct.unsubscribe a name, h.occupied.unsubscribe a name, fun a' name' => ?_⟩
    rw [Subscriptions.call, h.distinct.isSubscribed_unsubscribe, h.subscribed_iff, Call.change,
      Finset.mem_erase, ne_eq, Prod.mk.injEq, and_comm]
  | dropAll a =>
    refine ⟨h.distinct.dropAll a, h.occupied.erase a, fun a' name' => ?_⟩
    rw [Subscriptions.call, isSubscribed_dropAll, h.subscribed_iff, Call.change, Finset.mem_filter]

end

theorem holds_calls (cs : List Call) : (empty.calls cs).Holds (pairs cs) := by
  induction cs using List.reverseRecOn with
  | nil => exact holds_empty
  | append_singleton cs c ih =>
    rw [calls_snoc, pairs_snoc]
    exact ih.call c

/-! ## What a table shows -/

/-- The entries are the sets of those who occur in a pair, and all answers are about the pairs. -/
structure Represents (s : Subscriptions) (ps : Pairs) : Prop where
  contains_iff : ∀ a, s.sets.contains a = true ↔ a ∈ ps.image Prod.fst
  entry : ∀ a set, s.sets.get? a = some set → set ≠ [] ∧ set.Nodup ∧ ∀ name, name ∈ set ↔ (a, name) ∈ ps
  size_eq : s.size = (ps.image Prod.fst).card
  isSubscribed_iff : ∀ a name, s.isSubscribed a name = true ↔ (a, name) ∈ ps
  /-- The two that change a single pair say whether they did. -/
  subscribe_iff : ∀ a name, (s.subscribe a name).1 = true ↔ insert (a, name) ps ≠ ps
  unsubscribe_iff : ∀ a name, (s.unsubscribe a name).1 = true ↔ ps.erase (a, name) ≠ ps
  /-- Sorted by octets, and so without repetition. -/
  ascending : ∀ a, (s.commands a).Pairwise fun m n => toBytes m < toBytes n
  mem_commands : ∀ a name, name ∈ s.commands a ↔ (a, name) ∈ ps

theorem subscribe_fst (s : Subscriptions) (a : Address) (name : String) :
    (s.subscribe a name).1 = !s.isSubscribed a name := rfl

theorem unsubscribe_fst (s : Subscriptions) (a : Address) (name : String) :
    (s.unsubscribe a name).1 = s.isSubscribed a name := by
  unfold unsubscribe isSubscribed
  cases hs : s.sets.get? a with
  | none => rw [of_of_get?_eq_none hs]; rfl
  | some set => rw [of_of_get? hs]

section
variable {s : Subscriptions} {ps : Pairs}

theorem Holds.contains_iff (h : s.Holds ps) (a : Address) : s.sets.contains a = true ↔ a ∈ ps.image Prod.fst := by
  rw [Finset.mem_image]
  constructor
  · intro ha
    obtain ⟨name, hn⟩ := h.occupied.exists_command ha
    exact ⟨(a, name), (h.subscribed_iff a name).mp hn, rfl⟩
  · rintro ⟨⟨a', name⟩, hm, rfl⟩
    have hn := isSubscribed_iff.mp ((h.subscribed_iff a' name).mpr hm)
    cases hs : s.sets.get? a' with
    | none =>
      rw [of_of_get?_eq_none hs] at hn
      cases hn
    | some set => exact (s.sets.contains_iff a').mpr ⟨set, hs⟩

theorem Holds.size_eq (h : s.Holds ps) : s.size = (ps.image Prod.fst).card := by
  have hk : s.sets.keys.toFinset = ps.image Prod.fst := by
    ext a
    rw [List.mem_toFinset, Dictionary.mem_keys_iff, h.contains_iff]
  rw [← hk, List.toFinset_card_of_nodup s.sets.keys_nodup, Dictionary.length_keys]
  rfl

theorem Holds.represents (h : s.Holds ps) : s.Represents ps := by
  constructor
  case contains_iff => exact h.contains_iff
  case size_eq => exact h.size_eq
  case isSubscribed_iff => exact h.subscribed_iff
  case entry =>
    intro a set hs
    refine ⟨h.occupied a set hs, of_of_get? hs ▸ h.distinct a, fun name => ?_⟩
    rw [← h.subscribed_iff, isSubscribed_iff, of_of_get? hs]
  case subscribe_iff =>
    intro a name
    rw [subscribe_fst, ne_eq, Finset.insert_eq_self, ← h.subscribed_iff, Bool.not_eq_true', Bool.not_eq_true]
  case unsubscribe_iff =>
    intro a name
    rw [unsubscribe_fst, ne_eq, Finset.erase_eq_self, not_not, h.subscribed_iff]
  case ascending => exact fun a => (pairwise_sortNames (h.distinct a)).imp toBytes_lt
  case mem_commands =>
    intro a name
    rw [← h.subscribed_iff, isSubscribed_iff, commands, sortNames, List.mem_mergeSort]

end

/-! ## One consumer and the others -/

/-- Nothing that can be seen of `a` tells the tables apart. -/
structure AgreeOn (a : Address) (s s' : Subscriptions) : Prop where
  isSubscribed_eq : ∀ name, s.isSubscribed a name = s'.isSubscribed a name
  commands_eq : s.commands a = s'.commands a
  subscribe_eq : ∀ name, (s.subscribe a name).1 = (s'.subscribe a name).1
  unsubscribe_eq : ∀ name, (s.unsubscribe a name).1 = (s'.unsubscribe a name).1

theorem agreeOn_of_eq {s s' : Subscriptions} {a : Address} (h : s.of a = s'.of a) : AgreeOn a s s' := by
  have hs : ∀ name, s.isSubscribed a name = s'.isSubscribed a name := fun name => by
    rw [isSubscribed, isSubscribed, h]
  refine ⟨hs, by rw [commands, commands, h], fun name => ?_, fun name => ?_⟩
  · rw [subscribe_fst, subscribe_fst, hs]
  · rw [unsubscribe_fst, unsubscribe_fst, hs]

/-- What a call makes of the commands of its consumer. -/
def Call.revise (set : List String) : Call → List String
  | subscribe _ name => set.insert name
  | unsubscribe _ name => set.erase name
  | dropAll _ => []

theorem of_call (s : Subscriptions) (c : Call) (a : Address) :
    (s.call c).of a = if a = c.consumer then c.revise (s.of c.consumer) else s.of a := by
  cases c with
  | subscribe a' name => exact of_insert a' a _
  | unsubscribe a' name => exact of_unsubscribe a' a name
  | dropAll a' => exact of_erase a' a

theorem of_calls_filter (cs : List Call) (a : Address) :
    (empty.calls (cs.filter (·.consumer = a))).of a = (empty.calls cs).of a := by
  induction cs using List.reverseRecOn with
  | nil => rfl
  | append_singleton cs c ih =>
    rw [calls_snoc, of_call, List.filter_append]
    by_cases h : a = c.consumer
    · subst h
      rw [List.filter_cons_of_pos (by simp), List.filter_nil, calls_snoc, of_call, if_pos rfl, if_pos rfl, ih]
    · rw [List.filter_cons_of_neg (by simpa using Ne.symm h), List.filter_nil, List.append_nil, if_neg h, ih]

/-- **A table is the set of pairs** that its calls have left. A call on one consumer changes nothing that
can be seen of another, so the calls on a consumer alone would have left what can be seen of it. -/
theorem represents_calls (cs : List Call) : (empty.calls cs).Represents (pairs cs) ∧
    (∀ (c : Call) (a : Address), a ≠ c.consumer → AgreeOn a ((empty.calls cs).call c) (empty.calls cs)) ∧
    ∀ a, AgreeOn a (empty.calls (cs.filter (·.consumer = a))) (empty.calls cs) := by
  refine ⟨(holds_calls cs).represents, fun c a ha => ?_, fun a => ?_⟩
  · apply agreeOn_of_eq
    rw [of_call, if_neg ha]
  · exact agreeOn_of_eq (of_calls_filter cs a)

/-- `y` gives up a command that it does not have and then its only one, and `z` one of none; then `x` leaves,
and `w` does not notice. -/
theorem represents_calls_last_command : ∃ (cs : List Call) (c : Call),
    (empty.calls cs).Represents {("x", "pong"), ("x", "ping"), ("w", "ping")} ∧ (empty.calls cs).size = 2 ∧
    (empty.calls cs).sets.contains "y" = false ∧ "w" ≠ c.consumer ∧
    (empty.calls (cs ++ [c])).Represents {("w", "ping")} ∧
    AgreeOn "w" ((empty.calls cs).call c) (empty.calls cs) := by
  let cs : List Call := [.subscribe "x" "pong", .subscribe "y" "ping", .subscribe "x" "ping", .subscribe "w" "ping",
    .subscribe "x" "pong", .unsubscribe "y" "pong", .unsubscribe "y" "ping", .unsubscribe "z" "ping"]
  have h : pairs cs = {("x", "pong"), ("x", "ping"), ("w", "ping")} := by decide +kernel
  have h' : pairs (cs ++ [.dropAll "x"]) = {("w", "ping")} := by decide +kernel
  refine ⟨cs, .dropAll "x", h ▸ (represents_calls cs).1, by decide +kernel, by decide +kernel, by decide,
    h' ▸ (represents_calls (cs ++ [.dropAll "x"])).1, (represents_calls cs).2.1 _ "w" (by decide)⟩

end Subscriptions

end Switchboard
