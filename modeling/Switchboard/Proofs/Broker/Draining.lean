import Mathlib.Algebra.Group.Nat.Defs
import Switchboard.Proofs.Broker.Steps

/-!
# Draining the queue

`drain` makes passes up to the first without progress (`Drains`), so that at most one of them stalls. In
command mode it comes to a recursion on the waiting messages: `dealt` hands out the first of them, goes on
if it left, and ends there if it stays (`drain_eq_dealt`).
-/

namespace Switchboard

/-- The message after one more attempt. -/
def Message.tried (m : Message) : Message := { m with attempts := .ofNat (m.attempts.toNat + 1) }

namespace Broker

variable {ω : Type}

/-! ## The passes of a drain -/

/-- Passes one after the other, of which the last and no other makes no progress. -/
inductive Drains (c : Carrier ω) : Broker → ω → List Pass → Broker → ω → Prop
  | rest {b b' : Broker} {w w' : ω} {p : Pass} (hd : dispatch c b w = (p, b', w'))
      (hp : p.madeProgress = false) : Drains c b w [p] b' w'
  | pass {b b' b'' : Broker} {w w' w'' : ω} {p : Pass} {ps : List Pass} (hd : dispatch c b w = (p, b', w'))
      (hp : p.madeProgress = true) (h : Drains c b' w' ps b'' w'') : Drains c b w (p :: ps) b'' w''

section
variable {c : Carrier ω} {b b' : Broker} {w w' : ω} {p : Pass}

theorem drain_of_rest (hd : dispatch c b w = (p, b', w')) (hp : p.madeProgress = false) :
    drain c b w = (0, b', w') := by
  rw [drain, hd]
  simp [hp]

theorem drain_of_pass (hd : dispatch c b w = (p, b', w')) (hp : p.madeProgress = true) :
    drain c b w = ((drain c b' w').1 + 1, (drain c b' w').2) := by
  rw [drain, hd]
  simp [hp]

/-- The loop comes to an end, and counts the passes that made progress. -/
theorem drain_drains (c : Carrier ω) (b : Broker) (w : ω) : ∃ ps,
    Drains c b w ps (drain c b w).2.1 (drain c b w).2.2 ∧ ps.length = (drain c b w).1 + 1 := by
  induction b, w using drain.induct c with
  | case1 b w r hp ih =>
    obtain ⟨ps, h, hl⟩ := ih
    rw [drain_of_pass (p := r.1) rfl hp]
    exact ⟨r.1 :: ps, .pass rfl hp h, congrArg (· + 1) hl⟩
  | case2 b w r hp =>
    have hp' : r.1.madeProgress = false := Bool.eq_false_iff.mpr hp
    rw [drain_of_rest (p := r.1) rfl hp']
    exact ⟨[r.1], .rest rfl hp', rfl⟩

theorem Drains.count_stalled_le {ps : List Pass} (h : Drains c b w ps b' w') : ps.count .stalled ≤ 1 := by
  induction h with
  | rest => exact List.count_le_length
  | @pass b b' b'' w w' w'' p ps hd hp h ih =>
    have hne : p ≠ .stalled := by
      rintro rfl
      cases hp
    rw [List.count_cons_of_ne hne]
    exact ih

end

/-! ## The recursion on the waiting messages -/

/-- Send a copy of `m` to `e` if it is subscribed to `command`, and record it if it was accepted. -/
def copyTo (c : Carrier ω) (s : Subscriptions) (m : Message) (command : String)
    (r : Nat × Correlations × ω) (e : Endpoint) : Nat × Correlations × ω :=
  if s.isSubscribed e.address command then
    match c.send r.2.2 e m.payload with
    | (.ok id, w) => (r.1 + 1, r.2.1.record ⟨e.address, id⟩ m.origin, w)
    | (.error _, w) => (r.1, r.2.1, w)
  else r

/-- Go through the consumers in order of registration, and count the copies of `m` that were accepted.
There are none of a message that is no command of the catalogue. -/
def handOut (c : Carrier ω) (b : Broker) (m : Message) (t : Correlations) (w : ω) : Nat × Correlations × ω :=
  match b.commands.resolve m.payload with
  | .error _ => (0, t, w)
  | .ok invocation => b.consumers.entries.foldl (copyTo c b.subscriptions m invocation.command.name) (0, t, w)

/-- What a drain leaves of the messages: those behind the first that stays, which has one attempt more. -/
def dealt (c : Carrier ω) (b : Broker) : List Message → Correlations → ω → List Message × Correlations × ω
  | [], t, w => ([], t, w)
  | m :: ms, t, w =>
    if b.consumers.entries = [] then (m :: ms, t, w)
    else
      let r := handOut c b m t w
      if 0 < r.1 then dealt c b ms r.2.1 r.2.2
      else if 0 < b.maxAttempts.toNat ∧ b.maxAttempts.toNat ≤ m.attempts.toNat + 1 then dealt c b ms r.2.1 r.2.2
      else (m.tried :: ms, r.2.1, r.2.2)

/-- The broker with other messages and other records. -/
def holding (b : Broker) (ms : List Message) (t : Correlations) : Broker :=
  { b with queue := { b.queue with messages := ms }, answers := t }

theorem foldl_copyTo (c : Carrier ω) (s : Subscriptions) (m : Message) (command : String) :
    ∀ (es : List Endpoint) (n : Nat) (t : Correlations) (w : ω) {r : Nat × Correlations × ω},
      offer c m (es.filter fun e => s.isSubscribed e.address command) t w = r →
      es.foldl (copyTo c s m command) (n, t, w) = (n + r.1, r.2)
  | [], n, t, w, r, h => by
    cases h
    rfl
  | e :: es, n, t, w, r, h => by
    rw [List.foldl_cons, copyTo]
    by_cases hs : s.isSubscribed e.address command = true
    · rw [List.filter_cons_of_pos (by exact hs), offer, deliver] at h
      rw [if_pos hs]
      cases hc : c.send w e m.payload with
      | mk sent w' =>
        rw [hc] at h
        cases h
        cases sent with
        | ok id =>
          refine (foldl_copyTo c s m command es (n + 1) _ w' rfl).trans ?_
          rw [Nat.add_assoc, Nat.add_comm 1]
          rfl
        | error f => exact foldl_copyTo c s m command es n t w' rfl
    · rw [List.filter_cons_of_neg (by exact hs)] at h
      rw [if_neg hs]
      exact foldl_copyTo c s m command es n t w h

section
variable {c : Carrier ω} {b : Broker} {m : Message} {ms : List Message} {t : Correlations} {w : ω}

theorem dispatch_handOut (hm : b.mode = .command) (hc : b.consumers.entries ≠ []) {r : Nat × Correlations × ω}
    (hr : handOut c b m t w = r) : dispatch c (b.holding (m :: ms) t) w =
      if r.1 = 0 then
        (((b.holding (m :: ms) r.2.1).stall m).1, ((b.holding (m :: ms) r.2.1).stall m).2, r.2.2)
      else (.dispatched r.1, b.holding ms r.2.1, r.2.2) := by
  have he : b.consumers.isEmpty = false := by
    rw [Roster.isEmpty, List.isEmpty_eq_false_iff]
    exact hc
  have hd : dispatch c (b.holding (m :: ms) t) w = dispatchCommand c (b.holding (m :: ms) t) w := by
    simp [dispatch, holding, Queue.isEmpty, he, hm]
  have hq : (b.holding (m :: ms) t).queue.messages = m :: ms := rfl
  rw [hd, dispatchCommand, Queue.peek_of_front hq]
  unfold handOut at hr
  dsimp only
  rw [show (b.holding (m :: ms) t).commands = b.commands from rfl]
  cases hi : b.commands.resolve m.payload with
  | error f =>
    rw [hi] at hr
    cases hr
    rfl
  | ok invocation =>
    rw [hi] at hr
    dsimp only at hr ⊢
    rw [foldl_copyTo c b.subscriptions m invocation.command.name b.consumers.entries 0 t w rfl, Nat.zero_add] at hr
    cases hr
    rw [Queue.removeFront_of_front hq rfl]
    rfl

theorem stall_holding (b : Broker) (m : Message) (ms : List Message) (t : Correlations)
    (ha : m.attempts.toNat < 2 ^ 32 - 1) : (b.holding (m :: ms) t).stall m =
      if 0 < b.maxAttempts.toNat ∧ b.maxAttempts.toNat ≤ m.attempts.toNat + 1 then (.dropped, b.holding ms t)
      else (.stalled, b.holding (m.tried :: ms) t) := by
  -- one more attempt does not overflow
  have hn : (m.attempts + 1).toNat = m.attempts.toNat + 1 := by
    rw [UInt32.toNat_add, UInt32.toNat_one, Nat.mod_eq_of_lt (by omega)]
  have hl : (0 < b.maxAttempts ∧ b.maxAttempts ≤ m.attempts + 1) ↔
      0 < b.maxAttempts.toNat ∧ b.maxAttempts.toNat ≤ m.attempts.toNat + 1 := by
    rw [UInt32.lt_iff_toNat_lt, UInt32.le_iff_toNat_le, hn]
    rfl
  rw [stall_of_front (b := b.holding (m :: ms) t) rfl]
  by_cases h : 0 < b.maxAttempts.toNat ∧ b.maxAttempts.toNat ≤ m.attempts.toNat + 1
  · rw [if_pos h]
    exact if_pos (hl.mpr h)
  · rw [if_neg h, Message.tried, ← hn, UInt32.ofNat_toNat]
    exact if_neg fun h' => h (hl.mp h')

/-- What is left is behind the messages that are gone, but for the attempts of the first. -/
theorem dealt_suffix (c : Carrier ω) (b : Broker) : ∀ (ms : List Message) (t : Correlations) (w : ω),
    (dealt c b ms t w).1 = [] ∨ ∃ gone m m' behind, ms = gone ++ m :: behind ∧
      (dealt c b ms t w).1 = m' :: behind ∧ (m' = m ∨ m' = m.tried)
  | [], t, w => .inl rfl
  | m :: ms, t, w => by
    have further : ∀ t w, (dealt c b ms t w).1 = [] ∨ ∃ gone m₀ m' behind, m :: ms = gone ++ m₀ :: behind ∧
        (dealt c b ms t w).1 = m' :: behind ∧
        (m' = m₀ ∨ m' = m₀.tried) := by
      intro t w
      rcases dealt_suffix c b ms t w with h | ⟨gone, m₀, m', behind, rfl, h⟩
      · exact .inl h
      · exact .inr ⟨m :: gone, m₀, m', behind, rfl, h⟩
    rw [dealt]
    split
    · exact .inr ⟨[], m, m, ms, rfl, rfl, .inl rfl⟩
    · dsimp only
      split
      · exact further _ _
      · split
        · exact further _ _
        · exact .inr ⟨[], m, _, ms, rfl, rfl, .inr rfl⟩

theorem drain_holding (c : Carrier ω) {b : Broker} (hm : b.mode = .command) :
    ∀ (ms : List Message) (t : Correlations) (w : ω), (∀ m ∈ ms, m.attempts.toNat < 2 ^ 32 - 1) →
      ∃ n, n + (dealt c b ms t w).1.length = ms.length ∧ drain c (b.holding ms t) w =
        (n, b.holding (dealt c b ms t w).1 (dealt c b ms t w).2.1, (dealt c b ms t w).2.2)
  | [], t, w, _ => by
    refine ⟨0, rfl, drain_of_rest (p := .idle) ?_ rfl⟩
    simp [dispatch, holding, Queue.isEmpty, dealt]
  | m :: ms, t, w, ha => by
    have ih := drain_holding c hm ms
    have ham := ha m List.mem_cons_self
    have hams : ∀ m' ∈ ms, m'.attempts.toNat < 2 ^ 32 - 1 := fun m' hm' => ha m' (List.mem_cons_of_mem m hm')
    rw [dealt]
    by_cases hc : b.consumers.entries = []
    · rw [if_pos hc]
      refine ⟨0, Nat.zero_add _, drain_of_rest (p := .idle) ?_ rfl⟩
      simp [dispatch, holding, Roster.isEmpty, hc]
    · rw [if_neg hc]
      have hd : dispatch c (b.holding (m :: ms) t) w = _ := dispatch_handOut hm hc rfl
      generalize handOut c b m t w = r at hd ⊢
      obtain ⟨k, t', w'⟩ := r
      obtain ⟨n, hn, hi⟩ := ih t' w' hams
      dsimp only at hd ⊢
      rw [stall_holding b m ms t' ham] at hd
      -- the message is delivered, dropped or stays
      by_cases hk : k = 0
      · rw [if_pos hk] at hd
        rw [if_neg (Nat.not_lt.mpr (Nat.le_of_eq hk))]
        split
        · next hl =>
          rw [if_pos hl] at hd
          refine ⟨n + 1, ?_, ?_⟩
          · rw [Nat.add_right_comm, hn]; rfl
          · rw [drain_of_pass hd rfl, hi]
        · next hl =>
          rw [if_neg hl] at hd
          exact ⟨0, Nat.zero_add _, drain_of_rest hd rfl⟩
      · rw [if_neg hk] at hd
        rw [if_pos (Nat.pos_of_ne_zero hk)]
        refine ⟨n + 1, ?_, ?_⟩
        · rw [Nat.add_right_comm, hn]; rfl
        · rw [drain_of_pass hd rfl, hi]

end

/-- **Draining in command mode.** A drain does what the recursion on the waiting messages does, to the
records and to the connections as well, so that over a recording carrier it also sends the same. It counts
the messages that left, has at most one pass that stalls, leaves those behind a message that stays as they
were, and changes neither the roster nor the subscriptions. -/
theorem drain_eq_dealt (c : Carrier ω) {b : Broker} (w : ω) (hm : b.mode = .command)
    (ha : ∀ m ∈ b.queue.messages, m.attempts.toNat < 2 ^ 32 - 1) :
    ∃ n left t w', dealt c b b.queue.messages b.answers w = (left, t, w') ∧
      drain c b w = (n, b.holding left t, w') ∧ n + left.length = b.queue.size ∧
      (∃ ps, Drains c b w ps (b.holding left t) w' ∧ ps.length = n + 1 ∧ ps.count .stalled ≤ 1) ∧
      (left = [] ∨ ∃ gone m m' behind, b.queue.messages = gone ++ m :: behind ∧ left = m' :: behind ∧
        (m' = m ∨ m' = m.tried)) ∧
      (drain c b w).2.1.consumers = b.consumers ∧ (drain c b w).2.1.subscriptions = b.subscriptions := by
  obtain ⟨n, hn, hd⟩ := drain_holding c hm b.queue.messages b.answers w ha
  obtain ⟨ps, hps, hl⟩ := drain_drains c b w
  have hs := dealt_suffix c b b.queue.messages b.answers w
  generalize hr : dealt c b b.queue.messages b.answers w = r at hn hd hs
  obtain ⟨left, t, w'⟩ := r
  have hd' : drain c b w = (n, b.holding left t, w') := hd
  rw [hd'] at hps hl ⊢
  exact ⟨n, left, t, w', rfl, rfl, hn, ⟨ps, hps, hl, hps.count_stalled_le⟩, hs, rfl, rfl⟩

/-- One subscriber refuses a copy and another takes one, the next message is dropped, and the third stays. -/
theorem drain_eq_dealt_four : ∃ (c : Carrier Nat) (b : Broker), b.mode = .command ∧
    (∀ m ∈ b.queue.messages, m.attempts.toNat < 2 ^ 32 - 1) ∧ b.queue.size = 4 ∧ (drain c b 0).1 = 2 ∧
    (drain c b 0).2.1.queue.messages =
      [⟨"asker", 5, toBytes "nope", 3, 1⟩, ⟨"asker", 6, toBytes "ping/x", 4, 0⟩] ∧
    (drain c b 0).2.1.answers.get? ⟨"other", 7⟩ = some ⟨"asker", 3⟩ ∧ (drain c b 0).2.2 = 2 := by
  let c : Carrier Nat := ⟨fun n _ _ => (if n = 0 then .error (.sendFailure "closed") else .ok 7, n + 1)⟩
  let b : Broker := { fresh .command (.ofNames ["ping"]) 2 with
    queue := ⟨[⟨"asker", 3, toBytes "ping", 1, 0⟩, ⟨"asker", 4, toBytes "nope", 2, 1⟩,
      ⟨"asker", 5, toBytes "nope", 3, 0⟩, ⟨"asker", 6, toBytes "ping/x", 4, 0⟩], 4⟩
    consumers := ⟨[⟨"worker", 0, .far⟩, ⟨"idle", 1, .far⟩, ⟨"other", 2, .far⟩], ["other", "idle", "worker"], 3⟩
    subscriptions := ((Subscriptions.empty.subscribe "worker" "ping").2.subscribe "other" "ping").2 }
  have ha : ∀ m ∈ b.queue.messages, m.attempts.toNat < 2 ^ 32 - 1 := by decide
  obtain ⟨n, left, t, w', hr, hd, hn, -⟩ := drain_eq_dealt c (b := b) 0 rfl ha
  have hl : (dealt c b b.queue.messages b.answers 0).1 =
      [⟨"asker", 5, toBytes "nope", 3, 1⟩, ⟨"asker", 6, toBytes "ping/x", 4, 0⟩] := by decide +kernel
  have ht : (dealt c b b.queue.messages b.answers 0).2.1.get? ⟨"other", 7⟩ = some ⟨"asker", 3⟩ := by decide +kernel
  have hw : (dealt c b b.queue.messages b.answers 0).2.2 = 2 := by decide +kernel
  rw [hr] at hl ht hw
  dsimp only at hl ht hw
  subst hl
  refine ⟨c, b, rfl, ha, rfl, ?_⟩
  rw [hd]
  exact ⟨Nat.add_right_cancel (m := 2) hn, rfl, ht, hw⟩

end Broker

end Switchboard
