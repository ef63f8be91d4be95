import Switchboard.Proofs.Broker.Runs
import Switchboard.Proofs.History

/-!
# Who is registered

The registered consumers of a run in terms of its turns: `roll` lists them in order of registration, and
a consumer is registered exactly if it has not disconnected since it registered.
-/

namespace Switchboard.Broker

def Turn.Registers (t : Turn) (a : Address) : Prop :=
  ∃ e id data, t.outcome = .read e id data (.ok .registered) ∧ e.address = a

def Turn.enroll (es : List Endpoint) (t : Turn) : List Endpoint :=
  match t.outcome with
  | .read e _ _ (.ok .registered) => es ++ [e]
  | .disconnected a => es.filter fun e => e.address ≠ a
  | _ => es

/-- The consumers that have registered and not disconnected, in order of registration. -/
def roll (turns : List Turn) : List Endpoint := turns.foldl Turn.enroll []

section
variable {b b' : Broker} {sent : List Sending}

theorem Reads.consumers {e : Endpoint} {id : UInt32} {data : Bytes} {r : Except Failure Inbound}
    (hr : Reads b e id data sent r b') :
    (r = .ok .registered ∧ b.consumers.contains e.address = false ∧
      b'.consumers.entries = b.consumers.entries ++ [e]) ∨
    (r ≠ .ok .registered ∧ b'.consumers = b.consumers) := by
  cases hr with
  | registered hh hc r => exact .inl ⟨rfl, hc, rfl⟩
  | malformed hh hc hp => exact .inr ⟨by split <;> simp, by simp⟩
  | forwarded hh hc hp ho hn r => exact .inr ⟨by cases r <;> simp [Except.map], by simp⟩
  | @controlled p control hh hc hp ho hm hk =>
    exact .inr ⟨by cases control <;> simp [applyControl], by cases control <;> simp [applyControl, wake]⟩
  | _ => exact .inr ⟨by simp, by simp⟩

theorem Passes.entries {p : Pass} (hp : Passes b sent p b') : b'.consumers.entries = b.consumers.entries := by
  cases hp <;> rfl

end

theorem Turn.Occurs.enroll {t : Turn} (ht : t.Occurs) (h : t.before.Sound) :
    t.after.consumers.entries = t.enroll t.before.consumers.entries := by
  cases ht with
  | connected b e => rfl
  | disconnected b a => exact h.roster.entries_remove a
  | read hr =>
    rcases hr.consumers with ⟨rfl, -, he⟩ | ⟨hn, he⟩
    · exact he
    · rw [he]
      unfold Turn.enroll
      split
      · next heq => cases heq; exact absurd rfl hn
      · next heq => cases heq
      · rfl
  | passed hp => exact hp.entries
  | resumed b => rfl
  | recatalogued b commands => rfl

theorem Turn.Occurs.not_contains_of_registers {t : Turn} (ht : t.Occurs) {a : Address} (h : t.Registers a) :
    t.before.consumers.contains a = false := by
  obtain ⟨e, id, data, ho, rfl⟩ := h
  cases ht with
  | read hr =>
    cases ho
    rcases hr.consumers with ⟨-, hc, -⟩ | ⟨hn, -⟩
    · exact hc
    · exact absurd rfl hn
  | connected | disconnected | passed | resumed | recatalogued => cases ho

theorem Sound.contains_iff {b : Broker} (h : b.Sound) (a : Address) :
    b.consumers.contains a = true ↔ ∃ e ∈ b.consumers.entries, e.address = a := by
  rw [h.roster.contains_iff, Roster.addresses, List.mem_map]

theorem Turn.Occurs.contains_iff {t : Turn} (ht : t.Occurs) (h : t.before.Sound) (a : Address) :
    t.after.consumers.contains a = true ↔
      t.Registers a ∨ (t.before.consumers.contains a = true ∧ t.outcome ≠ .disconnected a) := by
  rw [(ht.sound h).contains_iff, h.contains_iff, ht.enroll h]
  unfold Turn.enroll Turn.Registers
  split
  · next e id data ho =>
    constructor
    · rintro ⟨e', he', rfl⟩
      rcases List.mem_append.mp he' with he' | he'
      · exact .inr ⟨⟨e', he', rfl⟩, by rw [ho]; simp⟩
      · rw [List.mem_singleton.mp he']
        exact .inl ⟨e, id, data, ho, rfl⟩
    · rintro (⟨e', id', data', ho', rfl⟩ | ⟨⟨e', he', rfl⟩, -⟩)
      · rw [ho] at ho'
        cases ho'
        exact ⟨e, by simp, rfl⟩
      · exact ⟨e', by simp [he'], rfl⟩
  · next a' ho =>
    constructor
    · rintro ⟨e', he', rfl⟩
      obtain ⟨he', hne⟩ := List.mem_filter.mp he'
      refine .inr ⟨⟨e', he', rfl⟩, fun hd => ?_⟩
      rw [ho] at hd
      cases hd
      simp at hne
    · rintro (⟨e', id', data', ho', -⟩ | ⟨⟨e', he', rfl⟩, hne⟩)
      · rw [ho] at ho'; cases ho'
      · refine ⟨e', List.mem_filter.mpr ⟨he', ?_⟩, rfl⟩
        rw [decide_eq_true_iff]
        exact fun h => hne (by rw [ho, h])
  · next hr hd =>
    constructor
    · exact fun he => .inr ⟨he, fun ho => hd a ho⟩
    · rintro (⟨e', id', data', ho', -⟩ | ⟨he, -⟩)
      · exact absurd ho' (hr e' id' data')
      · exact he

section
variable {mode : DispatchMode} {commands : Catalogue} {maxAttempts : UInt32} {turns : List Turn} {b : Broker}

theorem Run.entries_eq (h : Run (fresh mode commands maxAttempts) turns b) :
    b.consumers.entries = roll turns := by
  refine Run.induct (P := fun turns b => b.consumers.entries = roll turns) rfl (fun turns t hr ht ih => ?_) h
  rw [ht.enroll (hr.sound (sound_fresh mode commands maxAttempts)), ih, roll, roll, List.foldl_append]
  rfl

theorem Run.contains_iff (h : Run (fresh mode commands maxAttempts) turns b) (a : Address) :
    b.consumers.contains a = true ↔ Since (·.Registers a) (·.outcome = .disconnected a) turns := by
  refine Run.induct (P := fun turns b => b.consumers.contains a = true ↔
    Since (·.Registers a) (·.outcome = .disconnected a) turns) ?_ (fun turns t hr ht ih => ?_) h
  · exact ⟨fun h => (by cases h), fun h => absurd h (not_since_nil _ _)⟩
  · rw [ht.contains_iff (hr.sound (sound_fresh mode commands maxAttempts)), ih, since_snoc]

end

end Switchboard.Broker
