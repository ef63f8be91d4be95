import Mathlib.Algebra.Group.Nat.Defs
import Switchboard.Proofs.Broker.Runs

/-!
# Conservation of requests

What was accepted is what has left the queue, in the same order, followed by what is still queued. A
pass takes the front or nothing, and whatever it delivers is a copy of the front it takes, so that no
request is delivered by two passes (`Run.conserves_requests`).
-/

namespace Switchboard.Broker

/-- The message that a pass takes from the queue. -/
def Turn.removed? (t : Turn) : Option Message :=
  match t.outcome with
  | .passed p => if p.madeProgress then t.before.queue.messages.head? else none
  | _ => none

def accepted (turns : List Turn) : List Message := turns.filterMap (·.enqueued?)

def removed (turns : List Turn) : List Message := turns.filterMap (·.removed?)

/-- The waiting messages apart from their attempts. -/
def requests (b : Broker) : List Message := b.queue.messages.map (·.request)

/-! ## What one turn does to the queue -/

section
variable {b b' : Broker} {sent : List Sending}

theorem Passes.queue {p : Pass} (hp : Passes b sent p b') : b'.queue.lastSeq = b.queue.lastSeq ∧
    (p.madeProgress = true → ∃ m, b.queue.messages = m :: b'.queue.messages) ∧
    (p.madeProgress = false → b'.requests = b.requests) := by
  cases hp with
  | idle hi => exact ⟨rfl, fun h => (by cases h), fun _ => rfl⟩
  | direct hm hq he r =>
    refine ⟨rfl, fun _ => ⟨_, hq⟩, fun h => ?_⟩
    split at h <;> cases h
  | dispatched hm hq hs ha => exact ⟨rfl, fun _ => ⟨_, hq⟩, fun h => (by cases h)⟩
  | dropped hm hq hs ha hl => exact ⟨rfl, fun _ => ⟨_, hq⟩, fun h => (by cases h)⟩
  | stalled hm hq hs ha hl =>
    refine ⟨rfl, fun h => (by cases h), fun _ => ?_⟩
    simp [requests, hq, Message.request]

theorem Reads.queue {e : Endpoint} {id : UInt32} {data : Bytes} {r : Except Failure Inbound}
    (hr : Reads b e id data sent r b') :
    (r = .ok (.enqueued (b.queue.lastSeq + 1)) ∧ b'.queue =
      ⟨b.queue.messages ++ [⟨e.address, id, data, b.queue.lastSeq + 1, 0⟩], b.queue.lastSeq + 1⟩) ∨
    ((∀ seq, r ≠ .ok (.enqueued seq)) ∧ b'.queue = b.queue) := by
  cases hr with
  | enqueued hh hc ha => exact .inl ⟨rfl, rfl⟩
  | malformed hh hc hp => exact .inr ⟨fun seq h => (by split at h <;> cases h), by simp⟩
  | forwarded hh hc hp ho hn r => exact .inr ⟨fun seq h => (by cases r <;> cases h), by simp⟩
  | @controlled p control =>
    exact .inr ⟨fun seq h => (by cases control <;> cases h), by cases control <;> simp [applyControl, wake]⟩
  | _ => exact .inr ⟨fun seq h => (by cases h), by simp⟩

/-- A turn appends a message under the next number, or takes the front, or leaves the queue alone. -/
theorem Turn.Occurs.queue {t : Turn} (ht : t.Occurs) :
    (∃ m, t.enqueued? = some m ∧ t.removed? = none ∧ m.seq = t.before.queue.lastSeq + 1 ∧
      t.after.queue = ⟨t.before.queue.messages ++ [m], t.before.queue.lastSeq + 1⟩) ∨
    (t.enqueued? = none ∧ t.after.queue.lastSeq = t.before.queue.lastSeq ∧
      ((∃ m, t.removed? = some m ∧ t.before.queue.messages = m :: t.after.queue.messages) ∨
        (t.removed? = none ∧ t.after.requests = t.before.requests))) := by
  cases ht with
  | read hr =>
    rcases hr.queue with ⟨rfl, hq⟩ | ⟨hn, hq⟩
    · exact .inl ⟨_, rfl, rfl, rfl, hq⟩
    · exact .inr ⟨enqueued?_eq_none hn, by rw [hq], .inr ⟨rfl, by simp only [requests, hq]⟩⟩
  | @passed b b' sent p hp =>
    obtain ⟨hl, hy, hn⟩ := hp.queue
    refine .inr ⟨rfl, hl, ?_⟩
    cases hpr : p.madeProgress with
    | true =>
      obtain ⟨m, hm⟩ := hy hpr
      exact .inl ⟨m, by simp [Turn.removed?, hpr, hm], hm⟩
    | false => exact .inr ⟨by simp [Turn.removed?, hpr], hn hpr⟩
  | connected b e => exact .inr ⟨rfl, rfl, .inr ⟨rfl, rfl⟩⟩
  | disconnected b a => exact .inr ⟨rfl, rfl, .inr ⟨rfl, rfl⟩⟩
  | resumed b => exact .inr ⟨rfl, rfl, .inr ⟨rfl, rfl⟩⟩
  | recatalogued b commands => exact .inr ⟨rfl, rfl, .inr ⟨rfl, rfl⟩⟩

end

/-! ## What one pass delivers -/

section
variable {sent : List Sending}

theorem length_deliveries : ∀ sent : List Sending, (sent.filterMap (·.delivery?)).length = copies sent
  | [] => rfl
  | ⟨e, data, .ok id⟩ :: sent => by
    simpa [Sending.delivery?, copies, Except.isOk, Except.toBool] using length_deliveries sent
  | ⟨e, data, .error f⟩ :: sent => by
    simpa [Sending.delivery?, copies, Except.isOk, Except.toBool] using length_deliveries sent

theorem deliveries_sublist : ∀ sent : List Sending,
    ((sent.filterMap (·.delivery?)).map (·.consumer)).Sublist (sent.map (·.endpoint.address))
  | [] => .slnil
  | ⟨e, _, .ok _⟩ :: sent => (deliveries_sublist sent).cons_cons e.address
  | ⟨e, _, .error _⟩ :: sent => (deliveries_sublist sent).cons e.address

theorem deliveries_eq_nil (h : copies sent = 0) : sent.filterMap (·.delivery?) = [] := by
  rw [← List.length_eq_zero_iff, length_deliveries, h]

variable {b b' : Broker} {p : Pass}

/-- A pass delivers as many copies as it reports, one in direct mode, and none unless it dispatched. -/
theorem Passes.copies (hp : Passes b sent p b') :
    (∀ n, p = .dispatched n → 1 ≤ n ∧ Switchboard.copies sent = n ∧ (b.mode = .direct → n = 1)) ∧
    ((∀ n, p ≠ .dispatched n) → Switchboard.copies sent = 0) := by
  cases hp with
  | idle hi => exact ⟨fun n h => (by cases h), fun _ => rfl⟩
  | direct hm hq he r =>
    cases r with
    | ok id =>
      refine ⟨fun n h => ?_, fun h => absurd rfl (h 1)⟩
      cases h
      exact ⟨Nat.le_refl 1, rfl, fun _ => rfl⟩
    | error f => exact ⟨fun n h => (by cases h), fun _ => rfl⟩
  | dispatched hm hq hs ha =>
    refine ⟨fun n h => ?_, fun h => absurd rfl (h _)⟩
    cases h
    exact ⟨ha, rfl, fun hd => by rw [hm] at hd; cases hd⟩
  | dropped hm hq hs ha hl => exact ⟨fun n h => (by cases h), fun _ => ha⟩
  | stalled hm hq hs ha hl => exact ⟨fun n h => (by cases h), fun _ => ha⟩

theorem Passes.consumers (hp : Passes b sent p b') (h : b.Sound) :
    ((sent.filterMap (·.delivery?)).map (·.consumer)).Nodup ∧
      ∀ d ∈ sent.filterMap (·.delivery?), b.consumers.contains d.consumer = true := by
  have hsub : ((sent.filterMap (·.delivery?)).map (·.consumer)).Sublist b.consumers.addresses := by
    refine (deliveries_sublist sent).trans ?_
    have := hp.endpoints_sublist.map (·.address)
    rwa [List.map_map] at this
  refine ⟨h.roster.nodup.sublist hsub, fun d hd => (h.roster.contains_iff _).mpr ?_⟩
  exact hsub.subset (List.mem_map_of_mem hd)

end

/-! ## Numbers -/

section
variable {ms : List Message} {m : Message}

theorem seq_append_singleton (h : ms.map (·.seq) = (List.range' 1 ms.length).map UInt64.ofNat)
    (hm : m.seq = UInt64.ofNat ms.length + 1) : m.seq = UInt64.ofNat (ms ++ [m]).length ∧
      (ms ++ [m]).map (·.seq) = (List.range' 1 (ms ++ [m]).length).map UInt64.ofNat := by
  have hn : m.seq = UInt64.ofNat (ms.length + 1) := by
    rw [hm, UInt64.ofNat_add]; rfl
  rw [List.map_append, h, List.length_append, List.length_singleton, map_range'_snoc, ← hn]
  exact ⟨rfl, rfl⟩

theorem toNat_seq (h : ms.map (·.seq) = (List.range' 1 ms.length).map UInt64.ofNat)
    (hlt : ms.length < 2 ^ 64) : ms.map (·.seq.toNat) = List.range' 1 ms.length := by
  have hs := congrArg (List.map UInt64.toNat) h
  rw [List.map_map, List.map_map] at hs
  refine Eq.trans hs ?_
  conv => rhs; rw [← List.map_id (List.range' 1 ms.length)]
  refine List.map_congr_left fun i hi => ?_
  have hi' : i < 2 ^ 64 := by
    have := (List.mem_range'_1.mp hi).2
    omega
  exact UInt64.toNat_ofNat_of_lt hi'

theorem nodup_seq (h : ms.map (·.seq) = (List.range' 1 ms.length).map UInt64.ofNat)
    (hlt : ms.length < 2 ^ 64) : (ms.map (·.seq)).Nodup := by
  have hn : ((ms.map (·.seq)).map UInt64.toNat).Nodup := by
    rw [List.map_map]
    exact (toNat_seq h hlt : List.map (UInt64.toNat ∘ Message.seq) _ = _) ▸ List.nodup_range'
  exact hn.of_map

end

/-! ## Runs -/

section
variable {mode : DispatchMode} {commands : Catalogue} {maxAttempts : UInt32} {turns : List Turn} {b : Broker}

theorem Run.accepted_eq (h : Run (fresh mode commands maxAttempts) turns b) :
    (accepted turns).map (·.request) = (removed turns).map (·.request) ++ b.requests := by
  refine Run.induct (P := fun turns b =>
    (accepted turns).map (·.request) = (removed turns).map (·.request) ++ b.requests) rfl
    (fun turns t _ ht ih => ?_) h
  simp only [accepted, removed, List.filterMap_append, List.map_append] at ih ⊢
  rw [ih]
  rcases ht.queue with ⟨m, he, hr, -, hq⟩ | ⟨he, -, ⟨m, hr, hq⟩ | ⟨hr, hq⟩⟩
  · simp [he, hr, hq, requests]
  · simp [he, hr, hq, requests]
  · simp [he, hr, hq]

theorem Run.seq_eq (h : Run (fresh mode commands maxAttempts) turns b) :
    b.queue.lastSeq = UInt64.ofNat (accepted turns).length ∧
      (accepted turns).map (·.seq) = (List.range' 1 (accepted turns).length).map UInt64.ofNat := by
  refine Run.induct (P := fun turns b => b.queue.lastSeq = UInt64.ofNat (accepted turns).length ∧
      (accepted turns).map (·.seq) = (List.range' 1 (accepted turns).length).map UInt64.ofNat) ⟨rfl, rfl⟩
    (fun turns t _ ht ih => ?_) h
  obtain ⟨hl, hs⟩ := ih
  rcases ht.queue with ⟨m, he, -, hm, hq⟩ | ⟨he, hq, -⟩
  · have ha : accepted (turns ++ [t]) = accepted turns ++ [m] := by
      simp [accepted, List.filterMap_append, he]
    rw [ha, hq, ← hm]
    exact seq_append_singleton hs (hm.trans (by rw [hl]))
  · have ha : accepted (turns ++ [t]) = accepted turns := by
      simp [accepted, List.filterMap_append, he]
    rw [ha, hq]
    exact ⟨hl, hs⟩

/-- While fewer than 2^64 are accepted, the numbers are `1, 2, 3, …`. -/
theorem Run.seq_toNat (h : Run (fresh mode commands maxAttempts) turns b)
    (hlt : (accepted turns).length < 2 ^ 64) :
    (accepted turns).map (·.seq.toNat) = List.range' 1 (accepted turns).length :=
  toNat_seq h.seq_eq.2 hlt

/-- No two of the removed messages have the same number. -/
theorem Run.removed_nodup (h : Run (fresh mode commands maxAttempts) turns b)
    (hlt : (accepted turns).length < 2 ^ 64) : ((removed turns).map (·.seq)).Nodup := by
  have ha := nodup_seq h.seq_eq.2 hlt
  have hs : (accepted turns).map (·.seq) = (removed turns).map (·.seq) ++ b.queue.messages.map (·.seq) := by
    have := congrArg (List.map Message.seq) h.accepted_eq
    simpa [requests, Message.request, Function.comp_def] using this
  rw [hs] at ha
  exact ha.of_append_left

/-- A pass that delivers takes its front. -/
theorem Turn.Occurs.removed_of_delivers {t : Turn} (ht : t.Occurs) {m : Message} (hf : t.front? = some m)
    (hd : t.deliveries ≠ []) : t.removed? = some m := by
  cases ht with
  | @passed b b' sent p hp =>
    have hpr : p.madeProgress = true := by
      cases p with
      | dispatched n => rfl
      | idle | dropped | stalled =>
        refine absurd (deliveries_eq_nil (hp.copies.2 fun n h => ?_)) hd
        cases h
    simpa [Turn.removed?, hpr, Turn.front?] using hf
  | _ => cases hf

theorem Run.delivers_once (h : Run (fresh mode commands maxAttempts) turns b)
    (hlt : (accepted turns).length < 2 ^ 64) :
    turns.Pairwise fun t t' => ∀ m m', t.front? = some m → t'.front? = some m' →
      t.deliveries ≠ [] → t'.deliveries ≠ [] → m.seq ≠ m'.seq := by
  have hn := h.removed_nodup hlt
  rw [removed, List.Nodup, List.pairwise_map, List.pairwise_filterMap] at hn
  refine hn.imp_of_mem fun ht ht' hne m m' hf hf' hd hd' => ?_
  exact hne m ((h.of_mem ht).1.removed_of_delivers hf hd) m' ((h.of_mem ht').1.removed_of_delivers hf' hd')

/-- What a pass that came to `p` did with the front of the queue. -/
structure Turn.Conserves (t : Turn) (p : Pass) : Prop where
  taken : p.madeProgress = true → ∃ m, t.before.queue.messages = m :: t.after.queue.messages
  kept : p.madeProgress = false → t.after.requests = t.before.requests
  front : ∀ s ∈ t.sent, ∃ m, t.before.queue.messages.head? = some m ∧ s.data = m.payload
  delivered : ∀ n, p = .dispatched n →
    1 ≤ n ∧ t.deliveries.length = n ∧ (t.before.mode = .direct → n = 1)
  undelivered : (∀ n, p ≠ .dispatched n) → t.deliveries = []
  distinct : (t.deliveries.map (·.consumer)).Nodup
  registered : ∀ d ∈ t.deliveries, t.before.consumers.contains d.consumer = true

theorem Run.conserves (h : Run (fresh mode commands maxAttempts) turns b) {t : Turn} (ht : t ∈ turns)
    {p : Pass} (hp : t.outcome = .passed p) : t.Conserves p := by
  obtain ⟨ho, past, future, -, hr⟩ := h.of_mem ht
  have hs := hr.sound (sound_fresh mode commands maxAttempts)
  cases ho with
  | @passed b b' sent p' hps =>
    obtain rfl : p' = p := Outcome.passed.inj hp
    obtain ⟨-, hy, hn⟩ := hps.queue
    obtain ⟨hd, hu⟩ := hps.copies
    obtain ⟨hc, hm⟩ := hps.consumers hs
    refine ⟨hy, hn, fun s hs => hps.data hs, fun n hpn => ?_, fun hpn => deliveries_eq_nil (hu hpn), hc, hm⟩
    rw [Turn.deliveries, length_deliveries]
    exact hd n hpn
  | _ => cases hp

/-- **Conservation.** Below 2^64 requests, none is lost, duplicated or reordered, and none is delivered
by two passes. -/
theorem Run.conserves_requests (h : Run (fresh mode commands maxAttempts) turns b)
    (hlt : (accepted turns).length < 2 ^ 64) :
    (accepted turns).map (·.request) = (removed turns).map (·.request) ++ b.requests ∧
    (accepted turns).map (·.seq.toNat) = List.range' 1 (accepted turns).length ∧
    (∀ t ∈ turns, t.before.mode = mode ∧ ∀ p, t.outcome = .passed p → t.Conserves p) ∧
    turns.Pairwise fun t t' => ∀ m m', t.front? = some m → t'.front? = some m' →
      t.deliveries ≠ [] → t'.deliveries ≠ [] → m.seq ≠ m'.seq := by
  refine ⟨h.accepted_eq, h.seq_toNat hlt, fun t ht => ⟨?_, fun p hp => h.conserves ht hp⟩, h.delivers_once hlt⟩
  obtain ⟨-, past, future, -, hr⟩ := h.of_mem ht
  exact hr.mode

end

/-- Two requests are accepted and one is delivered, so that the other is still queued. -/
theorem conserves_requests_two : ∃ turns b, Run (fresh .direct) turns b ∧ (accepted turns).length < 2 ^ 64 ∧
    (accepted turns).map (·.request) = (removed turns).map (·.request) ++ b.requests ∧
    (accepted turns).map (·.seq.toNat) = [1, 2] ∧ (removed turns).map (·.payload) = [[42]] := by
  let c : Carrier Unit := ⟨fun w _ _ => (.ok 7, w)⟩
  let worker : Endpoint := ⟨"worker", 0, .far⟩
  let asker : Endpoint := ⟨"asker", 1, .far⟩
  have h0 : Run (fresh .direct) [] (fresh .direct) := .start
  have h := (((h0.next c () (.data worker 1 hello)).next c () (.data asker 3 [42])).next c ()
    (.data asker 4 [43])).next c () .pass
  obtain ⟨ha, hs, -⟩ := h.conserves_requests (by decide +kernel)
  exact ⟨_, _, h, by decide +kernel, ha, hs, by decide +kernel⟩

end Switchboard.Broker
