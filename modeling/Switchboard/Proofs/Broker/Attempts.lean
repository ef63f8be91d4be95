import Switchboard.Proofs.Broker.Conservation

/-!
# Attempts that are counted

A pass tries the message at the front of the queue. `trials` lists what the passes came to for one message:
so many that stalled, fewer than the limit, and then one that took it, which reaches the limit if it drops
the message. The attempts kept with the front are its stalled passes, and no other message has any
(`Run.counts_attempts`).
-/

namespace Switchboard

/-- The pass tried a message and delivered no copy of it. -/
def Pass.failed : Pass → Bool
  | .stalled | .dropped => true
  | .idle | .dispatched _ => false

namespace Broker

/-- What a pass came to for the message at the front. An idle pass does not try it. -/
def Turn.trial? (t : Turn) : Option Pass :=
  match t.outcome with
  | .passed .idle => none
  | .passed p => some p
  | _ => none

/-- The trials of message `k` when `n` messages have left before the first of the turns. -/
def trialsFrom (k : Nat) : Nat → List Turn → List Pass
  | _, [] => []
  | n, t :: ts => (if n = k then t.trial?.toList else []) ++ trialsFrom k (n + t.removed?.toList.length) ts

/-- The trials of message `k`, the accepted ones counted from zero. -/
def trials (turns : List Turn) (k : Nat) : List Pass := trialsFrom k 0 turns

def failures (turns : List Turn) (k : Nat) : Nat := (trials turns k).countP (·.failed)

theorem trialsFrom_append (k : Nat) (ys : List Turn) : ∀ (n : Nat) (xs : List Turn),
    trialsFrom k n (xs ++ ys) = trialsFrom k n xs ++ trialsFrom k (n + (removed xs).length) ys
  | n, [] => rfl
  | n, t :: xs => by
    have hr : (removed (t :: xs)).length = t.removed?.toList.length + (removed xs).length := by
      unfold removed
      rw [List.filterMap_cons]
      cases t.removed? with
      | none => simp
      | some m => simp [Nat.add_comm]
    rw [List.cons_append, trialsFrom, trialsFrom_append k ys, trialsFrom, hr, List.append_assoc, Nat.add_assoc]

theorem trials_snoc (turns : List Turn) (t : Turn) (k : Nat) : trials (turns ++ [t]) k =
    trials turns k ++ if (removed turns).length = k then t.trial?.toList else [] := by
  rw [trials, trialsFrom_append, trialsFrom, trialsFrom, List.append_nil, Nat.zero_add]
  rfl

/-! ## What a turn means for the messages -/

inductive Turn.Treats (t : Turn) : Prop
  | spares (ht : t.trial? = none) (hr : t.removed? = none)
      (hq : t.after.queue.messages = t.before.queue.messages)
  | joins {m : Message} (ht : t.trial? = none) (hr : t.removed? = none) (hm : m.attempts = 0)
      (hq : t.after.queue.messages = t.before.queue.messages ++ [m])
  | stalls {m : Message} {ms : List Message} (ht : t.trial? = some .stalled) (hr : t.removed? = none)
      (hb : t.before.queue.messages = m :: ms)
      (hq : t.after.queue.messages = { m with attempts := m.attempts + 1 } :: ms)
      (hl : ¬ (0 < t.before.maxAttempts ∧ t.before.maxAttempts ≤ m.attempts + 1)) (hc : copies t.sent = 0)
  | dispatches {m : Message} {ms : List Message} {n : Nat} (ht : t.trial? = some (.dispatched n))
      (hr : t.removed? = some m) (hb : t.before.queue.messages = m :: ms) (hq : t.after.queue.messages = ms)
      (hc : 0 < copies t.sent)
  | drops {m : Message} {ms : List Message} (ht : t.trial? = some .dropped) (hr : t.removed? = some m)
      (hb : t.before.queue.messages = m :: ms) (hq : t.after.queue.messages = ms)
      (hl : 0 < t.before.maxAttempts ∧ t.before.maxAttempts ≤ m.attempts + 1) (hc : copies t.sent = 0)

theorem Turn.Occurs.treats {t : Turn} (ht : t.Occurs) (hm : t.before.mode = .command) : t.Treats := by
  cases ht with
  | connected b e => exact .spares rfl rfl rfl
  | disconnected b a => exact .spares rfl rfl rfl
  | resumed b => exact .spares rfl rfl rfl
  | recatalogued b commands => exact .spares rfl rfl rfl
  | read hr =>
    rcases hr.queue with ⟨-, hq⟩ | ⟨-, hq⟩
    · exact .joins rfl rfl rfl (congrArg (·.messages) hq)
    · exact .spares rfl rfl (congrArg (·.messages) hq)
  | passed hp =>
    cases hp with
    | idle hi => exact .spares rfl rfl rfl
    | direct hd => exact absurd (hm.symm.trans hd) (by simp)
    | dispatched hm hq hs ha => exact .dispatches rfl (congrArg List.head? hq) hq rfl ha
    | dropped hm hq hs ha hl => exact .drops rfl (congrArg List.head? hq) hq rfl hl ha
    | stalled hm hq hs ha hl => exact .stalls rfl rfl hq rfl hl ha

/-! ## The tally -/

-- the trials of a message that has left
inductive Concluded (limit : UInt32) : List Pass → Prop
  | dispatched (s n : Nat) (h : 0 < limit → s < limit.toNat) :
      Concluded limit (List.replicate s .stalled ++ [.dispatched n])
  | dropped (s : Nat) (h : 0 < limit) (hs : s + 1 = limit.toNat) :
      Concluded limit (List.replicate s .stalled ++ [.dropped])

/-- Trials, message by message, when `n` messages have left and `ms` are queued. -/
structure Tally (limit : UInt32) (tr : Nat → List Pass) (n : Nat) (ms : List Message) : Prop where
  front : ∃ s, tr n = List.replicate s .stalled ∧ (0 < limit → s < limit.toNat) ∧
    (ms = [] → s = 0) ∧ ∀ m, ms.head? = some m → m.attempts = UInt32.ofNat s
  behind : ∀ m ∈ ms.tail, m.attempts = 0
  later : ∀ k, n < k → tr k = []
  earlier : ∀ k, k < n → Concluded limit (tr k)

-- below the limit one more attempt does not overflow
theorem toNat_attempt {a limit : UInt32} (h : a.toNat < limit.toNat) : (a + 1).toNat = a.toNat + 1 := by
  have hl := limit.toNat_lt
  rw [UInt32.toNat_add, UInt32.toNat_one, Nat.mod_eq_of_lt (by omega)]

theorem le_attempt_iff {a limit : UInt32} (h : a.toNat < limit.toNat) :
    limit ≤ a + 1 ↔ a.toNat + 1 = limit.toNat := by
  rw [UInt32.le_iff_toNat_le, toNat_attempt h]
  omega

section
variable {limit : UInt32} {tr : Nat → List Pass} {n : Nat} {m : Message} {ms : List Message}

theorem tally_fresh (limit : UInt32) : Tally limit (trials []) 0 [] := by
  constructor
  case front =>
    refine ⟨0, rfl, ?_, fun _ => rfl, fun m hm => (by cases hm)⟩
    exact UInt32.lt_iff_toNat_lt.mp
  case behind => intro m hm; cases hm
  case later => intro k _; rfl
  case earlier => intro k hk; exact absurd hk (Nat.not_lt_zero k)

theorem Tally.attempts (h : Tally limit tr n (m :: ms)) (hl : 0 < limit) :
    tr n = List.replicate m.attempts.toNat .stalled ∧ m.attempts.toNat < limit.toNat := by
  obtain ⟨s, ht, hs, -, ha⟩ := h.front
  have hlt := limit.toNat_lt
  have hm : m.attempts.toNat = s := by
    rw [ha m rfl, UInt32.toNat_ofNat', Nat.mod_eq_of_lt (Nat.lt_trans (hs hl) hlt)]
  rw [ht, hm]
  exact ⟨rfl, hs hl⟩

theorem Tally.joins (h : Tally limit tr n ms) (hm : m.attempts = 0) : Tally limit tr n (ms ++ [m]) := by
  obtain ⟨s, ht, hl, hz, ha⟩ := h.front
  cases ms with
  | nil =>
    -- the message joins at the front, where nothing has been tried yet
    obtain rfl := hz rfl
    refine ⟨⟨0, ht, hl, fun _ => rfl, ?_⟩, fun m' hm' => (by cases hm'), h.later, h.earlier⟩
    intro m' hm'
    obtain rfl : m = m' := Option.some.inj hm'
    exact hm
  | cons m₀ ms =>
    refine ⟨⟨s, ht, hl, fun hn => (by cases hn), ha⟩, ?_, h.later, h.earlier⟩
    intro m' hm'
    rcases List.mem_append.mp hm' with hm' | hm'
    · exact h.behind m' hm'
    · rw [List.mem_singleton.mp hm']; exact hm

theorem Tally.stalls (h : Tally limit tr n (m :: ms)) (hl : ¬ (0 < limit ∧ limit ≤ m.attempts + 1)) :
    Tally limit (fun k => tr k ++ if n = k then [.stalled] else []) n
      ({ m with attempts := m.attempts + 1 } :: ms) := by
  obtain ⟨s, ht, hs, -, ha⟩ := h.front
  have below (hp : 0 < limit) : s + 1 < limit.toNat := by
    obtain ⟨hr, hlt⟩ := h.attempts hp
    have hne : m.attempts.toNat + 1 ≠ limit.toNat := fun he => hl ⟨hp, (le_attempt_iff hlt).mpr he⟩
    have hsa : s = m.attempts.toNat := by
      simpa using congrArg List.length (ht.symm.trans hr)
    omega
  constructor
  case front =>
    refine ⟨s + 1, ?_, below, fun hn => (by cases hn), ?_⟩
    · rw [if_pos rfl, ht, List.replicate_succ']
    · intro m' hm'
      obtain rfl := Option.some.inj hm'
      rw [UInt32.ofNat_add, ← ha m rfl]
      rfl
  case behind => exact h.behind
  case later =>
    intro k hk
    rw [h.later k hk, if_neg (Nat.ne_of_lt hk), List.nil_append]
  case earlier =>
    intro k hk
    rw [if_neg (Nat.ne_of_gt hk), List.append_nil]
    exact h.earlier k hk

theorem Tally.leaves (h : Tally limit tr n (m :: ms)) {p : Pass} (hc : Concluded limit (tr n ++ [p])) :
    Tally limit (fun k => tr k ++ if n = k then [p] else []) (n + 1) ms := by
  constructor
  case front =>
    -- the message that comes to the front was behind it, so it has had no trial
    refine ⟨0, ?_, UInt32.lt_iff_toNat_lt.mp, fun _ => rfl, ?_⟩
    · rw [if_neg (Nat.ne_of_lt (Nat.lt_succ_self n)), h.later (n + 1) (Nat.lt_succ_self n)]; rfl
    · intro m' hm'
      exact h.behind m' (List.mem_of_mem_head? hm')
  case behind =>
    intro m' hm'
    exact h.behind m' (List.mem_of_mem_tail hm')
  case later =>
    intro k hk
    rw [h.later k (by omega), if_neg (by omega), List.nil_append]
  case earlier =>
    intro k hk
    by_cases hn : n = k
    · subst hn
      rw [if_pos rfl]
      exact hc
    · rw [if_neg hn, List.append_nil]
      exact h.earlier k (by omega)

theorem Tally.dispatches (h : Tally limit tr n ms) (i : Nat) : Concluded limit (tr n ++ [.dispatched i]) := by
  obtain ⟨s, ht, hs, -⟩ := h.front
  rw [ht]
  exact .dispatched s i hs

theorem Tally.drops (h : Tally limit tr n (m :: ms)) (hl : 0 < limit ∧ limit ≤ m.attempts + 1) :
    Concluded limit (tr n ++ [.dropped]) := by
  obtain ⟨hr, hlt⟩ := h.attempts hl.1
  rw [hr]
  exact .dropped m.attempts.toNat hl.1 ((le_attempt_iff hlt).mp hl.2)

theorem Tally.count_stalled_le (h : Tally limit tr n ms) (hl : 0 < limit) (k : Nat) :
    (tr k).count .stalled ≤ limit.toNat - 1 := by
  rcases Nat.lt_trichotomy k n with hk | rfl | hk
  · generalize htr : tr k = ps
    have hc := h.earlier k hk
    rw [htr] at hc
    cases hc with
    | dispatched s i hs =>
      have := hs hl
      rw [List.count_append, List.count_replicate_self, List.count_singleton]
      simp
      omega
    | dropped s hp hs =>
      rw [List.count_append, List.count_replicate_self, List.count_singleton]
      simp
      omega
  · obtain ⟨s, ht, hs, -⟩ := h.front
    have := hs hl
    rw [ht, List.count_replicate_self]
    omega
  · rw [h.later k hk]
    exact Nat.zero_le _

end

theorem Turn.Treats.tally {t : Turn} (ht : t.Treats) {turns : List Turn}
    (h : Tally t.before.maxAttempts (trials turns) (removed turns).length t.before.queue.messages) :
    Tally t.before.maxAttempts (trials (turns ++ [t])) (removed (turns ++ [t])).length
      t.after.queue.messages := by
  have htr : trials (turns ++ [t]) =
      fun k => trials turns k ++ if (removed turns).length = k then t.trial?.toList else [] :=
    funext (trials_snoc turns t)
  have hrem : removed (turns ++ [t]) = removed turns ++ t.removed?.toList := by
    unfold removed
    rw [List.filterMap_append]
    cases hr : t.removed? <;> simp [hr]
  cases ht with
  | spares ht hr hq =>
    rw [htr, hrem, ht, hr, hq]
    simpa using h
  | joins ht hr hm hq =>
    rw [htr, hrem, ht, hr, hq]
    simpa using h.joins hm
  | stalls ht hr hb hq hl hc =>
    rw [hb] at h
    rw [htr, hrem, ht, hr, hq]
    simpa using h.stalls hl
  | dispatches ht hr hb hq hc =>
    rw [hb] at h
    rw [htr, hrem, ht, hr, hq]
    simpa using h.leaves (h.dispatches _)
  | drops ht hr hb hq hl hc =>
    rw [hb] at h
    rw [htr, hrem, ht, hr, hq]
    simpa using h.leaves (h.drops hl)

theorem Run.tally {commands : Catalogue} {limit : UInt32} {turns : List Turn} {b : Broker}
    (h : Run (fresh .command commands limit) turns b) :
    Tally limit (trials turns) (removed turns).length b.queue.messages := by
  apply Run.induct (P := fun turns b => Tally limit (trials turns) (removed turns).length b.queue.messages) ?_ ?_ h
  · exact tally_fresh limit
  · intro turns t hr ht ih
    have hl : t.before.maxAttempts = limit := hr.maxAttempts
    rw [← hl] at ih ⊢
    exact (ht.treats hr.mode).tally ih

/-! ## What the trials of a run come to -/

section
variable {commands : Catalogue} {limit : UInt32} {turns : List Turn} {b : Broker} {m : Message}
  {ms : List Message}

/-- The front is the first accepted message that has not left. -/
theorem Run.request_front (h : Run (fresh .command commands limit) turns b) (hf : b.queue.messages = m :: ms) :
    ((accepted turns)[(removed turns).length]?).map (·.request) = some m.request := by
  have hl : ((removed turns).map (·.request)).length = (removed turns).length := List.length_map ..
  rw [← List.getElem?_map, h.accepted_eq, List.getElem?_append_right (Nat.le_of_eq hl), hl, Nat.sub_self,
    requests, hf]
  rfl

theorem Run.failures_front (h : Run (fresh .command commands limit) turns b) (hf : b.queue.messages = m :: ms)
    (hl : 0 < limit) :
    m.attempts.toNat = failures turns (removed turns).length ∧ m.attempts.toNat < limit.toNat := by
  have ht := h.tally
  rw [hf] at ht
  obtain ⟨hr, hlt⟩ := ht.attempts hl
  refine ⟨?_, hlt⟩
  rw [failures, hr, List.countP_replicate]
  rfl

end

/-- What a pass that came to `p` meant for the message `m` it tried, after the turns of `past`. -/
structure Turn.Tries (t : Turn) (past : List Turn) (limit : UInt32) (m : Message) (p : Pass) : Prop where
  failed_iff : p.failed = true ↔ copies t.sent = 0
  front : t.before.queue.messages.head? = some m
  accepted : ((accepted past)[(removed past).length]?).map (·.request) = some m.request
  counted : 0 < limit → m.attempts.toNat = failures past (removed past).length
  -- so one more attempt does not overflow
  bounded : 0 < limit → (m.attempts + 1).toNat = m.attempts.toNat + 1 ∧ m.attempts + 1 ≤ limit
  dropped_iff : 0 < limit → p.failed = true →
    (p = .dropped ↔ failures past (removed past).length + 1 = limit.toNat)
  dropped : p = .dropped → 0 < limit ∧ t.removed? = some m ∧ copies t.sent = 0

section
variable {commands : Catalogue} {limit : UInt32} {past turns : List Turn} {t : Turn} {b : Broker}

theorem Run.tries_of_front (h : Run (fresh .command commands limit) past t.before) {m : Message}
    {ms : List Message} (hb : t.before.queue.messages = m :: ms) {p : Pass}
    (hf : p.failed = true ↔ copies t.sent = 0)
    (hi : 0 < limit → p.failed = true → (p = .dropped ↔ limit ≤ m.attempts + 1))
    (hd : p = .dropped → 0 < limit ∧ t.removed? = some m ∧ copies t.sent = 0) : t.Tries past limit m p := by
  constructor
  case failed_iff => exact hf
  case front => exact congrArg List.head? hb
  case accepted => exact h.request_front hb
  case counted => exact fun hl => (h.failures_front hb hl).1
  case bounded =>
    intro hl
    have hlt := (h.failures_front hb hl).2
    refine ⟨toNat_attempt hlt, ?_⟩
    rw [UInt32.le_iff_toNat_le, toNat_attempt hlt]
    exact hlt
  case dropped_iff =>
    intro hl hp
    obtain ⟨hn, hlt⟩ := h.failures_front hb hl
    rw [hi hl hp, le_attempt_iff hlt, hn]
  case dropped => exact hd

theorem Run.tries (h : Run (fresh .command commands limit) past t.before) (ht : t.Occurs) {p : Pass}
    (hp : t.trial? = some p) : ∃ m, t.Tries past limit m p := by
  have hlim : t.before.maxAttempts = limit := h.maxAttempts
  cases ht.treats h.mode with
  | spares hn => rw [hn] at hp; cases hp
  | joins hn => rw [hn] at hp; cases hp
  | @stalls m ms hs hr hb hq hl hc =>
    obtain rfl := Option.some.inj (hs.symm.trans hp)
    rw [hlim] at hl
    refine ⟨m, h.tries_of_front hb (iff_of_true rfl hc) ?_ fun hd => (by cases hd)⟩
    intro hz _
    exact iff_of_false (by simp) fun hle => hl ⟨hz, hle⟩
  | @dispatches m ms n hs hr hb hq hc =>
    obtain rfl := Option.some.inj (hs.symm.trans hp)
    have hf : Pass.failed (.dispatched n) = true ↔ copies t.sent = 0 :=
      iff_of_false (by simp [Pass.failed]) (Nat.ne_of_gt hc)
    exact ⟨m, h.tries_of_front hb hf (fun _ hf => (by cases hf)) fun hd => (by cases hd)⟩
  | @drops m ms hs hr hb hq hl hc =>
    obtain rfl := Option.some.inj (hs.symm.trans hp)
    rw [hlim] at hl
    exact ⟨m, h.tries_of_front hb (iff_of_true rfl hc) (fun _ _ => iff_of_true rfl hl.2)
      fun _ => ⟨hl.1, hr, hc⟩⟩

/-- **Dead letters.** With a limit, the attempts kept with the front are the passes that failed to deliver
it; they stay below the limit, and the failure that reaches it drops the message. Without one, no message
is dropped. -/
theorem Run.counts_attempts (h : Run (fresh .command commands limit) turns b) :
    (∀ m ∈ b.queue.messages.tail, m.attempts = 0) ∧
    (0 < limit →
      (∀ m, b.queue.messages.head? = some m →
        m.attempts.toNat = failures turns (removed turns).length ∧ m.attempts < limit) ∧
      ∀ k, (trials turns k).count .stalled ≤ limit.toNat - 1) ∧
    (∀ past t future p, turns = past ++ t :: future → t.outcome = .passed p → p ≠ .idle →
      ∃ m, t.Tries past limit m p) ∧
    (limit = 0 → ∀ t ∈ turns, t.outcome ≠ .passed .dropped) := by
  have tried : ∀ past t future p, turns = past ++ t :: future → t.outcome = .passed p → p ≠ .idle →
      ∃ m, t.Tries past limit m p := by
    intro past t future p hs ho hp
    obtain ⟨ht, hr⟩ := h.of_split hs
    refine hr.tries ht ?_
    unfold Turn.trial?
    rw [ho]
    cases p with
    | idle => exact absurd rfl hp
    | _ => rfl
  refine ⟨h.tally.behind, ?_, tried, ?_⟩
  · intro hl
    refine ⟨?_, h.tally.count_stalled_le hl⟩
    intro m hm
    obtain ⟨ms, hq⟩ : ∃ ms, b.queue.messages = m :: ms := List.head?_eq_some_iff.mp hm
    obtain ⟨hf, hlt⟩ := h.failures_front hq hl
    exact ⟨hf, UInt32.lt_iff_toNat_lt.mpr hlt⟩
  · intro hz t ht ho
    obtain ⟨-, past, future, hs, -⟩ := h.of_mem ht
    obtain ⟨m, hm⟩ := tried past t future .dropped hs ho (by simp)
    rw [hz] at hm
    exact absurd (hm.dropped rfl).1 (by decide)

end

/-- Nobody is subscribed: the first message is dropped by its second pass, and the next one stalls. -/
theorem counts_attempts_twice : ∃ turns b m, Run (fresh .command (.ofNames ["ping"]) 2) turns b ∧
    trials turns 0 = [.stalled, .dropped] ∧ trials turns 1 = [.stalled] ∧ b.queue.messages = [m] ∧
    m.attempts.toNat = failures turns (removed turns).length ∧ m.attempts < 2 := by
  let c : Carrier Unit := ⟨fun w _ _ => (.ok 7, w)⟩
  let worker : Endpoint := ⟨"worker", 0, .far⟩
  let asker : Endpoint := ⟨"asker", 1, .far⟩
  have h0 : Run (fresh .command (.ofNames ["ping"]) 2) [] (fresh .command (.ofNames ["ping"]) 2) := .start
  have h1 := ((h0.next c () .pass).next c () (.data worker 1 hello)).next c () (.data asker 3 (toBytes "ping"))
  have h2 := (h1.next c () .pass).next c () (.data asker 4 (toBytes "ping/a"))
  obtain ⟨turns, b, h, hz, ho, hq⟩ : ∃ turns b, Run (fresh .command (.ofNames ["ping"]) 2) turns b ∧
      trials turns 0 = [.stalled, .dropped] ∧ trials turns 1 = [.stalled] ∧
      b.queue.messages = [⟨"asker", 4, toBytes "ping/a", 2, 1⟩] :=
    ⟨_, _, (h2.next c () .pass).next c () .pass, by decide +kernel, by decide +kernel, by decide +kernel⟩
  exact ⟨turns, b, _, h, hz, ho, hq, (h.counts_attempts.2.1 (by decide)).1 _ (congrArg List.head? hq)⟩

end Broker

end Switchboard
