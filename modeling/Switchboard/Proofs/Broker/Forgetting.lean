import Switchboard.Proofs.Broker.Runs
import Switchboard.Proofs.Roster.Rotation
import Switchboard.Proofs.Subscriptions

/-!
# Disconnects

A disconnect takes one address out of every table that knows consumers or peers and leaves the rest as it
was, in its order. So a second one of the address changes nothing, and those of two addresses come to the
same broker in either order, the cursor included (`Reachable.disconnect_forgets`).
-/

namespace Switchboard

theorem Dictionary.contains_erase_self {κ ν : Type} [DecidableEq κ] (d : Dictionary κ ν) (k : κ) :
    (d.erase k).contains k = false := by
  refine Bool.eq_false_iff.mpr fun hc => ?_
  obtain ⟨v, hv⟩ := ((d.erase k).contains_iff k).mp hc
  rw [get?_erase, if_pos rfl] at hv
  cases hv

namespace Roster

/-- Whom one turn for each consumer serves. -/
def round (r : Roster) : List Address := r.served (List.replicate r.size .next)

section
variable {r : Roster}

theorem served_of_order (es fs : List Endpoint) (h : r.order = es ++ fs) :
    r.served (List.replicate es.length .next) = es.map (·.address) := by
  induction es generalizing r fs with
  | nil => rfl
  | cons e es ih =>
    rcases next_cases r with ⟨hn, -⟩ | ⟨e', es', r', ho, hn, ho'⟩
    · rw [hn] at h; cases h
    · obtain ⟨rfl, rfl⟩ := List.cons.inj (ho.symm.trans h)
      rw [List.length_cons, List.replicate_succ, served, call, hn, ih (fs ++ [e']) (by simpa using ho')]
      rfl

theorem round_eq (r : Roster) : r.round = r.order.map (·.address) := by
  rw [round, size, ← (order_perm r).length_eq]
  exact served_of_order r.order [] (List.append_nil _).symm

theorem index_remove (r : Roster) (a : Address) : (r.remove a).2.index = r.index.erase a := by
  unfold remove
  split
  · dsimp only
    split <;> rfl
  · next hc =>
    refine (List.erase_of_not_mem fun hm => hc ?_).symm
    rw [contains, List.contains_iff_mem]
    exact hm

theorem WellFormed.take_remove (h : r.WellFormed) (a : Address) :
    (r.remove a).2.entries.take (r.remove a).2.cursor =
      (r.entries.take r.cursor).filter fun e => e.address ≠ a := by
  have hs : (r.remove a).2.entries = (r.entries.take r.cursor).filter (fun e => e.address ≠ a) ++
      (r.entries.drop r.cursor).filter (fun e => e.address ≠ a) := by
    rw [← List.filter_append, List.take_append_drop, h.entries_remove]
  rw [hs, h.cursor_remove, List.take_left]

/-- The cursor counts the consumers in front of it, and whichever leaves first, the same ones stay. -/
theorem WellFormed.remove_comm (h : r.WellFormed) (a a' : Address) :
    ((r.remove a).2.remove a').2 = ((r.remove a').2.remove a).2 := by
  have he : ((r.remove a).2.remove a').2.entries = ((r.remove a').2.remove a).2.entries := by
    rw [(h.remove a).entries_remove, (h.remove a').entries_remove, h.entries_remove, h.entries_remove,
      List.filter_comm]
  have hi : ((r.remove a).2.remove a').2.index = ((r.remove a').2.remove a).2.index := by
    rw [index_remove, index_remove, index_remove, index_remove, List.erase_comm]
  have hc : ((r.remove a).2.remove a').2.cursor = ((r.remove a').2.remove a).2.cursor := by
    rw [(h.remove a).cursor_remove, (h.remove a').cursor_remove, h.take_remove, h.take_remove,
      List.filter_comm]
  show (⟨_, _, _⟩ : Roster) = ⟨_, _, _⟩
  rw [he, hi, hc]

theorem WellFormed.not_contains_remove (h : r.WellFormed) (a : Address) : (r.remove a).2.contains a = false :=
  Bool.eq_false_iff.mpr fun hc => ((h.contains_remove a a).mp hc).1 rfl

theorem WellFormed.remove_remove (h : r.WellFormed) (a : Address) :
    ((r.remove a).2.remove a).2 = (r.remove a).2 := by
  rw [remove_of_not_contains (h.not_contains_remove a)]

end

end Roster

namespace Broker

variable {b b' : Broker} {sent : List Sending}

/-! ## Reachable states -/

/-- What becomes of a broker by its operations, and by what its owner does to its tables. The owner calls on
the roster; whatever becomes of the other tables. -/
inductive Reachable : Broker → Prop
  | fresh (mode : DispatchMode) (commands : Catalogue) (maxAttempts : UInt32) :
      Reachable (fresh mode commands maxAttempts)
  | turn {ω : Type} {b : Broker} (h : Reachable b) (c : Carrier ω) (w : ω) (op : Operation) :
      Reachable (b.turn c w op).after
  | call {b : Broker} (h : Reachable b) (call : Roster.Call) :
      Reachable { b with consumers := (b.consumers.call call).2 }
  | tables {b : Broker} (h : Reachable b) (queue : Queue) (answers : Correlations)
      (subscriptions : Subscriptions) : Reachable { b with queue, answers, subscriptions }

theorem Reads.calls {e : Endpoint} {id : UInt32} {data : Bytes} {r : Except Failure Inbound}
    (hr : Reads b e id data sent r b') : b'.consumers = b.consumers ∨ b'.consumers = (b.consumers.call (.add e)).2 := by
  cases hr with
  | registered hh hc r =>
    right
    rw [Roster.call, Roster.add, hc]
    rfl
  | @controlled p control => cases control <;> exact .inl (by simp [applyControl, wake])
  | _ => exact .inl (by simp)

theorem Passes.calls {p : Pass} (hp : Passes b sent p b') :
    b'.consumers = b.consumers ∨ b'.consumers = (b.consumers.call .next).2 := by
  cases hp with
  | direct hm hq he r =>
    right
    rw [Roster.call, Roster.next, he]
  | _ => exact .inl rfl

/-- A turn leaves the roster alone or calls on it once. -/
theorem Turn.Occurs.calls {t : Turn} (ht : t.Occurs) :
    t.after.consumers = t.before.consumers ∨ ∃ call, t.after.consumers = (t.before.consumers.call call).2 := by
  cases ht with
  | disconnected b a => exact .inr ⟨.remove a, rfl⟩
  | read hr => exact hr.calls.imp id fun h => ⟨_, h⟩
  | passed hp => exact hp.calls.imp id fun h => ⟨_, h⟩
  | connected | resumed | recatalogued => exact .inl rfl

theorem Reachable.wellFormed (h : Reachable b) : b.consumers.WellFormed := by
  induction h with
  | fresh => exact Roster.wellFormed_empty
  | @turn ω b h c w op ih =>
    have hb := turn_before c w b op
    rcases (turn_occurs c w b op).calls with he | ⟨call, he⟩
    · rw [he, hb]; exact ih
    · rw [he, hb]; exact ih.call call
  | call h call ih => exact ih.call call
  | tables h queue answers subscriptions ih => exact ih

/-! ## What a disconnect leaves -/

/-- Of what `b` knows, `b'` has forgotten `a` and nothing else. -/
structure Forgets (b : Broker) (a : Address) (b' : Broker) : Prop where
  queue : b'.queue = b.queue
  answers : b'.answers = b.answers
  commands : b'.commands = b.commands
  registration : ∀ a', a' ≠ a → b'.consumers.contains a' = b.consumers.contains a' ∧
    b'.consumers.entries.find? (·.address = a') = b.consumers.entries.find? (·.address = a')
  subscriptions : ∀ a', a' ≠ a → b'.subscriptions.commands a' = b.subscriptions.commands a' ∧
    ∀ command, b'.subscriptions.isSubscribed a' command = b.subscriptions.isSubscribed a' command
  peer : ∀ a', a' ≠ a → b'.peers.get? a' = b.peers.get? a'
  /-- The others keep their order of registration, and that in which they are served. -/
  entries : b'.consumers.entries = b.consumers.entries.filter fun e => e.address ≠ a
  round : b'.consumers.round = b.consumers.round.filter (· ≠ a)
  unregistered : b'.consumers.contains a = false ∧ ∀ e ∈ b'.consumers.entries, e.address ≠ a
  unsubscribed : b'.subscriptions.sets.contains a = false ∧
    ∀ command, b'.subscriptions.isSubscribed a command = false
  unknown : b'.peers.contains a = false

theorem forgets_disconnect (h : b.consumers.WellFormed) (a : Address) : b.Forgets a (b.disconnect a) := by
  have held : ∀ a', (b.disconnect a).subscriptions.of a' = if a' = a then [] else b.subscriptions.of a' :=
    Subscriptions.of_erase a
  constructor
  case queue => rfl
  case answers => rfl
  case commands => rfl
  case registration =>
    intro a' hne
    refine ⟨?_, ?_⟩
    · rw [Bool.eq_iff_iff]
      exact (h.contains_remove a a').trans (and_iff_right hne)
    · show (b.consumers.remove a).2.entries.find? _ = _
      rw [h.entries_remove, List.find?_filter]
      congr 1
      funext e
      by_cases he : e.address = a'
      · simp [he, hne]
      · simp [he]
  case subscriptions =>
    intro a' hne
    simp only [Subscriptions.commands, Subscriptions.isSubscribed, held, if_neg hne, implies_true, and_self]
  case peer =>
    intro a' hne
    exact (b.peers.get?_erase a a').trans (if_neg hne)
  case entries => exact h.entries_remove a
  case round =>
    rw [Roster.round_eq, Roster.round_eq, List.filter_map]
    exact congrArg (List.map (·.address)) (h.order_remove a)
  case unregistered =>
    refine ⟨h.not_contains_remove a, fun e he => ?_⟩
    have he : e ∈ (b.consumers.remove a).2.entries := he
    rw [h.entries_remove] at he
    simpa using (List.mem_filter.mp he).2
  case unsubscribed =>
    refine ⟨b.subscriptions.sets.contains_erase_self a, fun command => ?_⟩
    rw [Subscriptions.isSubscribed, held, if_pos rfl]
    rfl
  case unknown => exact b.peers.contains_erase_self a

theorem disconnect_disconnect (h : b.consumers.WellFormed) (a : Address) :
    (b.disconnect a).disconnect a = b.disconnect a := by
  unfold disconnect Subscriptions.dropAll
  simp only [h.remove_remove, Dictionary.erase_erase]

theorem disconnect_comm (h : b.consumers.WellFormed) (a a' : Address) :
    (b.disconnect a).disconnect a' = (b.disconnect a').disconnect a := by
  unfold disconnect Subscriptions.dropAll
  simp only [h.remove_comm a a', Dictionary.erase_comm _ a a']

/-- **A disconnect forgets one address**, once and for all, and in whatever order they leave. -/
theorem Reachable.disconnect_forgets (h : Reachable b) (a a' : Address) :
    (b.disconnect a).disconnect a = b.disconnect a ∧
      (b.disconnect a).disconnect a' = (b.disconnect a').disconnect a ∧ b.Forgets a (b.disconnect a) :=
  ⟨disconnect_disconnect h.wellFormed a, disconnect_comm h.wellFormed a a', forgets_disconnect h.wellFormed a⟩

/-- The first two of three consumers leave, and the cursor is behind both. -/
theorem disconnect_forgets_two : ∃ b, Reachable b ∧ b.consumers.cursor = 2 ∧ b.consumers.round = ["z", "x", "y"] ∧
    (b.disconnect "x").consumers.round = ["z", "y"] ∧
    ((b.disconnect "x").disconnect "y") = ((b.disconnect "y").disconnect "x") ∧
    ((b.disconnect "y").disconnect "x").consumers.cursor = 0 := by
  let c : Carrier Unit := ⟨fun w _ _ => (.ok 7, w)⟩
  have h0 : Reachable (fresh .command (.ofNames ["ping"])) := .fresh _ _ _
  have h1 := ((h0.turn c () (.data ⟨"x", 0, .far⟩ 1 hello)).turn c () (.data ⟨"y", 1, .far⟩ 1 hello)).turn c ()
    (.data ⟨"z", 2, .far⟩ 1 hello)
  have h2 := h1.turn c () (.data ⟨"x", 0, .far⟩ 2 (Control.subscribe "ping").toBytes)
  have h := (h2.call .next).call .next
  obtain ⟨-, hc, hf⟩ := h.disconnect_forgets "x" "y"
  refine ⟨_, h, by decide +kernel, by decide +kernel, ?_, hc, by decide +kernel⟩
  rw [hf.round]
  decide +kernel

end Broker

end Switchboard
