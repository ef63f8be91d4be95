import Switchboard.Proofs.Broker.Answers
import Switchboard.Proofs.Broker.Conservation
import Switchboard.Proofs.Broker.Registrations

/-!
# Records of consumers that left

A disconnect takes no record out of the table of correlations. So a record is for a delivery to the
present registration of its consumer exactly if that consumer has not disconnected since the delivery
(`Run.record_current_iff`); otherwise it stays, and an answer from a later registration under the same
address is forwarded for it.
-/

namespace Switchboard.Broker

def Turn.Delivers (t : Turn) (d : Delivery) : Prop := d ∈ t.deliveries

/-- A delivery to the consumer that is registered under the address now. -/
def Current (turns : List Turn) (b : Broker) (d : Delivery) : Prop :=
  b.consumers.contains d.consumer = true ∧ Since (·.Delivers d) (·.Registers d.consumer) turns

/-- A delivery to a consumer that has stayed connected. -/
def Lasting (turns : List Turn) (d : Delivery) : Prop :=
  Since (·.Delivers d) (·.outcome = .disconnected d.consumer) turns

section
variable {t : Turn} {d : Delivery}

theorem Turn.Occurs.contains_of_delivers (ht : t.Occurs) (h : t.before.Sound) (hd : t.Delivers d) :
    t.after.consumers.contains d.consumer = true := by
  cases ht with
  | passed hp =>
    have hc := (hp.consumers h).2 d hd
    rw [h.contains_iff] at hc
    rwa [(h.passes hp).contains_iff, hp.entries]
  | connected | disconnected | read | resumed | recatalogued => cases hd

theorem Turn.Occurs.current_iff (ht : t.Occurs) (h : t.before.Sound) {turns : List Turn}
    (ih : Current turns t.before d ↔ Lasting turns d) :
    Current (turns ++ [t]) t.after d ↔ Lasting (turns ++ [t]) d := by
  unfold Current Lasting at ih ⊢
  rw [since_snoc, since_snoc]
  by_cases hd : t.Delivers d
  · simp [hd, ht.contains_of_delivers h hd]
  · simp only [hd, false_or]
    rw [ht.contains_iff h, ← ih]
    constructor
    · rintro ⟨hr | ⟨hc, hx⟩, hs, hn⟩
      · exact absurd hr hn
      · exact ⟨⟨hc, hs⟩, hx⟩
    · rintro ⟨⟨hc, hs⟩, hx⟩
      refine ⟨.inr ⟨hc, hx⟩, hs, fun hr => ?_⟩
      rw [ht.not_contains_of_registers hr] at hc
      cases hc

end

section
variable {mode : DispatchMode} {commands : Catalogue} {maxAttempts : UInt32} {turns : List Turn} {b : Broker}

theorem Run.current_iff (h : Run (fresh mode commands maxAttempts) turns b) (d : Delivery) :
    Current turns b d ↔ Lasting turns d := by
  refine Run.induct (P := fun turns b => Current turns b d ↔ Lasting turns d) ?_ (fun turns t hr ht ih => ?_) h
  · exact ⟨fun hc => absurd hc.2 (not_since_nil _ _), fun hl => absurd hl (not_since_nil _ _)⟩
  · exact ht.current_iff (hr.sound (sound_fresh mode commands maxAttempts)) ih

theorem Run.delivered_of_record (h : Run (fresh mode commands maxAttempts) turns b) {d : Delivery} {o : Origin}
    (hg : b.answers.get? d = some o) : ∃ t ∈ turns, t.Delivers d ∧ ∃ m, t.front? = some m ∧ m.origin = o := by
  obtain ⟨past, m, future, hs, ho, -, -⟩ := (h.follows.tracks d o).mp hg
  have hm : .copied d m ∈ marks turns := by rw [hs]; simp
  obtain ⟨t, ht, hm⟩ := List.mem_flatMap.mp hm
  refine ⟨t, ht, ?_⟩
  simp only [Turn.marks, List.mem_append, List.mem_map, List.mem_flatMap, Option.mem_toList] at hm
  rcases hm with (⟨_, -, hm⟩ | ⟨m', hf, d', hd, hm⟩) | ⟨_, -, hm⟩
  · cases hm
  · cases hm
    exact ⟨hd, m, hf, ho⟩
  · cases hm

/-- **Records and registrations.** Every record is of a delivery; it is of one to the present
registration of its consumer exactly if the consumer has not disconnected since, and the same holds of
whatever an answer is forwarded for. -/
theorem Run.record_current_iff (h : Run (fresh mode commands maxAttempts) turns b) :
    (∀ d o, b.answers.get? d = some o →
      (∃ t ∈ turns, t.Delivers d ∧ ∃ m, t.front? = some m ∧ m.origin = o) ∧
      (Current turns b d ↔ Lasting turns d)) ∧
    ∀ {ω : Type} (c : Carrier ω) (w : ω) (e : Endpoint) (id : UInt32) (data : Bytes) (o : Origin),
      b.consumers.contains e.address = true →
      (handleData c b e id data w).1 = .ok (.forwarded o.producer o.id) →
      ∃ n a, data = Packet.encode ⟨n, a⟩ ∧ b.answers.get? ⟨e.address, n⟩ = some o ∧
        (Since (·.Delivers ⟨e.address, n⟩) (·.Registers e.address) turns ↔ Lasting turns ⟨e.address, n⟩) := by
  refine ⟨fun d o hg => ⟨h.delivered_of_record hg, h.current_iff d⟩, fun c w e id data o hc hf => ?_⟩
  have hs := h.sound (sound_fresh mode commands maxAttempts)
  obtain ⟨-, n, a, peer, rfl, hg, -, -⟩ := (hs.forwarded_iff hc c w id data o).mp hf
  refine ⟨n, a, rfl, hg, ?_⟩
  rw [← h.current_iff, Current]
  exact (and_iff_right hc).symm

end

/-- A consumer that stays keeps its record, and the record is its own. -/
theorem record_current_iff_stayed : ∃ (turns : List Turn) (b : Broker), Run (fresh .direct) turns b ∧
    b.answers.get? ⟨"worker", 7⟩ = some ⟨"asker", 3⟩ ∧ Current turns b ⟨"worker", 7⟩ := by
  let c : Carrier Unit := ⟨fun w _ _ => (.ok 7, w)⟩
  let worker : Endpoint := ⟨"worker", 0, .far⟩
  let asker : Endpoint := ⟨"asker", 2, .far⟩
  have h0 : Run (fresh .direct) [] (fresh .direct) := .start
  have h1 := (h0.next c () (.data worker 1 hello)).next c () (.data asker 3 [42])
  have h := (h1.next c () .pass).next c () (.disconnect "asker")
  have hg := h.record_current_iff.1 ⟨"worker", 7⟩ ⟨"asker", 3⟩ (by decide +kernel)
  refine ⟨_, _, h, by decide +kernel, hg.2.mpr ?_⟩
  -- delivered in the pass, and only another peer has left behind it
  refine since_snoc.mpr (.inr ⟨since_snoc.mpr (.inl ?_), fun hd => ?_⟩)
  · exact List.mem_singleton_self _
  · injection hd with ha
    revert ha
    decide

/-- A consumer gets a copy and leaves; the next one of its address answers it. -/
theorem record_outlives_registration : ∃ (turns : List Turn) (b : Broker) (c : Carrier Unit) (e : Endpoint),
    Run (fresh .direct) turns b ∧ b.consumers.contains e.address = true ∧
    b.answers.get? ⟨e.address, 7⟩ = some ⟨"asker", 3⟩ ∧
    ¬ Since (·.Delivers ⟨e.address, 7⟩) (·.Registers e.address) turns ∧
    (handleData c b e 0 (Packet.encode ⟨7, [1]⟩) ()).1 = .ok (.forwarded "asker" 3) := by
  let c : Carrier Unit := ⟨fun w _ _ => (.ok 7, w)⟩
  let earlier : Endpoint := ⟨"worker", 0, .far⟩
  let later : Endpoint := ⟨"worker", 1, .far⟩
  let asker : Endpoint := ⟨"asker", 2, .far⟩
  have h0 : Run (fresh .direct) [] (fresh .direct) := .start
  have h1 := ((h0.next c () (.data earlier 1 hello)).next c () (.data asker 3 [42])).next c () .pass
  have h := (h1.next c () (.disconnect "worker")).next c () (.data later 1 hello)
  refine ⟨_, _, c, later, h, by decide +kernel, by decide +kernel, fun hs => ?_, by decide +kernel⟩
  -- the last turn registers the address anew and delivers nothing
  rcases since_snoc.mp hs with hd | ⟨-, hr⟩
  · cases hd
  · exact hr ⟨later, 1, hello, congrArg (Outcome.read later 1 hello) (by decide +kernel), rfl⟩

end Switchboard.Broker
