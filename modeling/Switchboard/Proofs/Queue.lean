import Mathlib.Algebra.Group.Nat.Defs
import Switchboard.Queue

/-!
# First in, first out

What calls have taken from a queue, followed by what is still queued, is what they put in, numbered on from
the last number (`calls_balance`). So the numbers of a queue that was empty are consecutive and name each
message once, and only the message at the front can be removed or counted (`first_in_first_out`).
-/

namespace Switchboard

/-- A message apart from the attempts made to deliver it. -/
def Message.request (m : Message) : Message := { m with attempts := 0 }

/-- What a producer wrote. -/
def Message.content (m : Message) : Address × UInt32 × Bytes := (m.producer, m.producerId, m.payload)

namespace Queue

/-! ## Calls -/

inductive Call where
  | enqueue (m : Message)
  | peek
  | dequeue
  | removeFront (seq : UInt64)
  | recordAttempt (seq : UInt64)
deriving DecidableEq, Repr

inductive Reply where
  | numbered (seq : UInt64)
  | shown (m : Message)
  | taken (m : Message)
  | counted (attempts : UInt32)
  | failed (f : Failure)
deriving DecidableEq, Repr

def Reply.of {α : Type} (f : α → Reply) : Except Failure α → Reply
  | .ok a => f a
  | .error e => failed e

def call (q : Queue) : Call → Reply × Queue
  | .enqueue m => (.numbered (q.enqueue m).1, (q.enqueue m).2)
  | .peek => (.of .shown q.peek, q)
  | .dequeue => (.of .taken q.dequeue.1, q.dequeue.2)
  | .removeFront seq => (.of .taken (q.removeFront seq).1, (q.removeFront seq).2)
  | .recordAttempt seq => (.of .counted (q.recordAttempt seq).1, (q.recordAttempt seq).2)

def calls (q : Queue) (cs : List Call) : Queue := cs.foldl (fun q c => (q.call c).2) q

/-- The messages that the calls put in, as they were given. -/
def Call.entered? : Call → Option Message
  | .enqueue m => some m
  | _ => none

def entered (cs : List Call) : List Message := cs.filterMap (·.entered?)

def Reply.taken? : Reply → Option Message
  | .taken m => some m
  | _ => none

/-- The messages that the calls take out, one after the other. -/
def taken : Queue → List Call → List Message
  | _, [] => []
  | q, c :: cs => (q.call c).1.taken?.toList ++ taken (q.call c).2 cs

/-- The messages numbered on from `last`, with no attempts made. -/
def stamped : UInt64 → List Message → List Message
  | _, [] => []
  | last, m :: ms => { m with seq := last + 1, attempts := 0 } :: stamped (last + 1) ms

/-- The number is that of the message at the front. -/
def Names (q : Queue) (seq : UInt64) : Prop := ∃ m, q.messages.head? = some m ∧ m.seq = seq

/-! ## What one call does -/

inductive Acts (q : Queue) : Call → Reply → Queue → Prop
  | entered (m : Message) : Acts q (.enqueue m) (.numbered (q.lastSeq + 1))
      ⟨q.messages ++ [{ m with seq := q.lastSeq + 1 }], q.lastSeq + 1⟩
  | shown {m : Message} : Acts q .peek (.shown m) q
  | taken {c : Call} {m : Message} {ms : List Message} (hc : c.entered? = none) (h : q.messages = m :: ms) :
      Acts q c (.taken m) { q with messages := ms }
  | counted {seq : UInt64} {m : Message} {ms : List Message} (h : q.messages = m :: ms) :
      Acts q (.recordAttempt seq) (.counted (m.attempts + 1))
        { q with messages := { m with attempts := m.attempts + 1 } :: ms }
  | failed {c : Call} (f : Failure) (hc : c.entered? = none) : Acts q c (.failed f) q

section
variable (q : Queue)

theorem call_acts (c : Call) : q.Acts c (q.call c).1 (q.call c).2 := by
  cases c with
  | enqueue m => exact .entered m
  | peek =>
    simp only [call]
    cases q.peek with
    | error f => exact .failed f rfl
    | ok m => exact .shown
  | dequeue =>
    simp only [call]
    rcases q.dequeue_cases with ⟨f, h⟩ | ⟨m, ms, hq, h⟩
    · rw [h]
      exact .failed f rfl
    · rw [h]
      exact .taken rfl hq
  | removeFront seq =>
    simp only [call]
    rcases q.removeFront_cases seq with ⟨f, h⟩ | ⟨m, ms, hq, h⟩
    · rw [h]
      exact .failed f rfl
    · rw [h]
      exact .taken rfl hq
  | recordAttempt seq =>
    simp only [call]
    rcases q.recordAttempt_cases seq with ⟨f, h⟩ | ⟨m, ms, hq, h⟩
    · rw [h]
      exact .failed f rfl
    · rw [h]
      exact .counted hq

theorem names_iff_of_front {m : Message} {ms : List Message} (h : q.messages = m :: ms) (seq : UInt64) :
    q.Names seq ↔ m.seq = seq := by
  simp [Names, h]

theorem not_names_of_empty (h : q.messages = []) (seq : UInt64) : ¬ q.Names seq := by
  simp [Names, h]

theorem removeFront_iff (seq : UInt64) : (∃ m, (q.removeFront seq).1 = .ok m) ↔ q.Names seq := by
  unfold removeFront
  cases h : q.messages with
  | nil => simp [q.not_names_of_empty h]
  | cons m ms =>
    rw [q.names_iff_of_front h]
    by_cases hs : m.seq = seq <;> simp [hs]

theorem recordAttempt_iff (seq : UInt64) : (∃ n, (q.recordAttempt seq).1 = .ok n) ↔ q.Names seq := by
  unfold recordAttempt
  cases h : q.messages with
  | nil => simp [q.not_names_of_empty h]
  | cons m ms =>
    rw [q.names_iff_of_front h]
    by_cases hs : m.seq = seq <;> simp [hs]

theorem call_of_failed {c : Call} {f : Failure} (h : (q.call c).1 = .failed f) : (q.call c).2 = q := by
  have ha := q.call_acts c
  rw [h] at ha
  generalize (q.call c).2 = q' at ha
  cases ha
  rfl

/-- What leaves with a call and what is queued behind it are what was queued and what came with it. -/
theorem call_balance (c : Call) :
    ((q.call c).1.taken?.toList ++ (q.call c).2.messages).map (·.request) =
        q.messages.map (·.request) ++ stamped q.lastSeq c.entered?.toList ∧
      (q.call c).2.lastSeq = q.lastSeq + .ofNat c.entered?.toList.length := by
  have ha := q.call_acts c
  generalize (q.call c).1 = r, (q.call c).2 = q' at ha
  cases ha with
  | entered m => simp [Reply.taken?, Call.entered?, stamped, Message.request]
  | shown => simp [Reply.taken?, Call.entered?, stamped]
  | taken hc h => simp [Reply.taken?, hc, h, stamped]
  | counted h => simp [Reply.taken?, Call.entered?, h, stamped, Message.request]
  | failed f hc => simp [Reply.taken?, hc, stamped]

end

/-! ## What calls do -/

theorem stamped_append (last : UInt64) (ms ms' : List Message) :
    stamped last (ms ++ ms') = stamped last ms ++ stamped (last + .ofNat ms.length) ms' := by
  induction ms generalizing last with
  | nil => simp [stamped]
  | cons m ms ih =>
    rw [List.cons_append, stamped, stamped, ih, List.length_cons, UInt64.ofNat_add, UInt64.add_assoc,
      UInt64.add_comm 1]
    rfl

theorem getElem?_stamped (last : UInt64) (ms : List Message) (i : Nat) : (stamped last ms)[i]? =
    ms[i]?.map fun m => { m with seq := last + .ofNat (i + 1), attempts := 0 } := by
  induction ms generalizing last i with
  | nil => rfl
  | cons m ms ih =>
    cases i with
    | zero => rfl
    | succ i =>
      rw [stamped, List.getElem?_cons_succ, List.getElem?_cons_succ, ih, UInt64.ofNat_add (i + 1),
        UInt64.add_assoc, UInt64.add_comm 1]
      rfl

theorem length_stamped (last : UInt64) (ms : List Message) : (stamped last ms).length = ms.length := by
  induction ms generalizing last with
  | nil => rfl
  | cons m ms ih => simp [stamped, ih]

theorem map_content_stamped (last : UInt64) (ms : List Message) :
    (stamped last ms).map (·.content) = ms.map (·.content) := by
  induction ms generalizing last with
  | nil => rfl
  | cons m ms ih => rw [stamped, List.map_cons, List.map_cons, ih]; rfl

/-- **Balance.** What the calls take, and then what is queued behind them, is what was queued, and then what
they put in, numbered on. -/
theorem calls_balance (q : Queue) (cs : List Call) :
    (taken q cs ++ (q.calls cs).messages).map (·.request) =
        q.messages.map (·.request) ++ stamped q.lastSeq (entered cs) ∧
      (q.calls cs).lastSeq = q.lastSeq + .ofNat (entered cs).length := by
  -- each call hands on a queue with another last number
  induction cs generalizing q with
  | nil => simp [taken, calls, entered, stamped]
  | cons c cs ih =>
    obtain ⟨hb, hl⟩ := q.call_balance c
    obtain ⟨ihb, ihl⟩ := ih (q.call c).2
    have he : entered (c :: cs) = c.entered?.toList ++ entered cs := by
      cases hc : c.entered? <;> simp [entered, hc]
    have hc : q.calls (c :: cs) = (q.call c).2.calls cs := rfl
    rw [List.map_append] at hb ihb
    rw [he, hc, taken, stamped_append]
    constructor
    · rw [List.append_assoc, List.map_append, List.map_append, ihb, ← List.append_assoc, hb, List.append_assoc,
        hl]
    · rw [ihl, hl, List.length_append, UInt64.ofNat_add, UInt64.add_assoc]

section
variable {cs : List Call} {i : Nat} {m : Message}

theorem length_taken (cs : List Call) :
    (taken empty cs).length + (empty.calls cs).size = (entered cs).length := by
  have h := congrArg List.length (empty.calls_balance cs).1
  simpa [length_stamped, empty, size] using h

theorem toNat_lastSeq (hn : (entered cs).length < 2 ^ 64) :
    (empty.calls cs).lastSeq.toNat = (entered cs).length := by
  rw [(empty.calls_balance cs).2, show empty.lastSeq = 0 from rfl, UInt64.zero_add]
  exact UInt64.toNat_ofNat_of_lt hn

/-- The number of a message is its place among all that came. -/
theorem seq_of_place (hn : (entered cs).length < 2 ^ 64)
    (h : (taken empty cs ++ (empty.calls cs).messages)[i]? = some m) : m.seq.toNat = i + 1 := by
  have hb : (taken empty cs ++ (empty.calls cs).messages).map (·.request) = stamped 0 (entered cs) :=
    (empty.calls_balance cs).1
  have hi : i < (entered cs).length := by
    rw [← length_taken, size, ← List.length_append]
    exact (List.getElem?_eq_some_iff.mp h).1
  have hr := congrArg (·[i]?) hb
  simp only [List.getElem?_map, h, getElem?_stamped, List.getElem?_eq_getElem hi, Option.map_some,
    Option.some.injEq] at hr
  have hs : m.seq = .ofNat (i + 1) := by
    have := congrArg Message.seq hr
    simpa [Message.request] using this
  have hlt : i + 1 < 2 ^ 64 := by omega
  rw [hs]
  exact UInt64.toNat_ofNat_of_lt hlt

theorem seq_queued (hn : (entered cs).length < 2 ^ 64) (h : (empty.calls cs).messages[i]? = some m) :
    m.seq.toNat = (taken empty cs).length + i + 1 := by
  apply seq_of_place hn
  rw [List.getElem?_append_right (Nat.le_add_right _ _), Nat.add_sub_cancel_left]
  exact h

theorem toNat_of_names (hn : (entered cs).length < 2 ^ 64) {seq : UInt64} (h : (empty.calls cs).Names seq) :
    seq.toNat = (taken empty cs).length + 1 := by
  obtain ⟨m, hm, rfl⟩ := h
  rw [List.head?_eq_getElem?] at hm
  exact seq_queued hn hm

end

/-- What the calls `cs` make of a queue that was empty. -/
structure Orderly (q : Queue) (cs : List Call) : Prop where
  size_le : q.size ≤ q.lastSeq.toNat
  seq_eq : ∀ i m, q.messages[i]? = some m → m.seq.toNat = q.lastSeq.toNat - q.size + 1 + i
  order : (taken empty cs ++ q.messages).map (·.content) = (entered cs).map (·.content)
  stale : ∀ m ∈ taken empty cs, ¬ q.Names m.seq
  behind : ∀ m ∈ q.messages.tail, ¬ q.Names m.seq
  future : ∀ seq, q.lastSeq < seq → ¬ q.Names seq

theorem orderly_calls (cs : List Call) (hn : (entered cs).length < 2 ^ 64) : (empty.calls cs).Orderly cs := by
  have hlen := length_taken cs
  have hlast := toNat_lastSeq hn
  constructor
  case size_le => omega
  case seq_eq =>
    intro i m h
    rw [seq_queued hn h]
    omega
  case order =>
    have h := congrArg (List.map (·.content)) (empty.calls_balance cs).1
    rw [List.map_map] at h
    exact h.trans (map_content_stamped 0 (entered cs))
  case stale =>
    -- a message that was taken has its place, and so its number, before all that are queued
    intro m hm hf
    obtain ⟨i, hi, hg⟩ := List.mem_iff_getElem.mp hm
    have hs : m.seq.toNat = i + 1 := by
      apply seq_of_place hn
      rw [List.getElem?_append_left hi, List.getElem?_eq_getElem hi, hg]
    have := toNat_of_names hn hf
    omega
  case behind =>
    intro m hm hf
    obtain ⟨i, hi⟩ := List.mem_iff_getElem?.mp hm
    rw [List.getElem?_tail] at hi
    have hs := seq_queued hn hi
    have := toNat_of_names hn hf
    omega
  case future =>
    intro seq hlt hf
    have hs := toNat_of_names hn hf
    have hpos : 0 < (empty.calls cs).size := by
      obtain ⟨m, hm, -⟩ := hf
      rw [List.head?_eq_getElem?] at hm
      exact (List.getElem?_eq_some_iff.mp hm).1
    have := UInt64.lt_iff_toNat_lt.mp hlt
    omega

/-- **First in, first out.** While fewer than 2^64 messages were put in, those that are queued have consecutive
numbers up to the last one, and those that were taken and those that are queued are those that were put in, in
this order. A number gets at a message only while it is that of the front, which no number of a message taken
or behind it is, nor one yet to come. Counting an attempt changes nothing but the attempts of the front. What
fails changes nothing, and neither does looking. -/
theorem first_in_first_out (cs : List Call) (hn : (entered cs).length < 2 ^ 64) :
    (empty.calls cs).Orderly cs ∧
    (∀ seq, ((∃ m, ((empty.calls cs).removeFront seq).1 = .ok m) ↔ (empty.calls cs).Names seq) ∧
      ((∃ n, ((empty.calls cs).recordAttempt seq).1 = .ok n) ↔ (empty.calls cs).Names seq)) ∧
    (∀ m ms, (empty.calls cs).messages = m :: ms →
      (empty.calls cs).dequeue = (.ok m, { empty.calls cs with messages := ms }) ∧
      (empty.calls cs).removeFront m.seq = (.ok m, { empty.calls cs with messages := ms }) ∧
      (empty.calls cs).recordAttempt m.seq = (.ok (m.attempts + 1),
        { empty.calls cs with messages := { m with attempts := m.attempts + 1 } :: ms })) ∧
    (∀ c f, ((empty.calls cs).call c).1 = .failed f → ((empty.calls cs).call c).2 = empty.calls cs) ∧
    ((empty.calls cs).call .peek).2 = empty.calls cs := by
  refine ⟨orderly_calls cs hn, fun seq => ⟨removeFront_iff _ seq, recordAttempt_iff _ seq⟩, ?_,
    fun c f h => call_of_failed _ h, rfl⟩
  intro m ms h
  exact ⟨dequeue_of_front h, removeFront_of_front h rfl, recordAttempt_of_front h rfl⟩

/-- Two messages come with numbers of their own. The first is counted and removed, and its number gets at
nothing any more. -/
theorem first_in_first_out_two : ∃ cs : List Call, (entered cs).length < 2 ^ 64 ∧
    (empty.calls cs).messages.map (fun m => (m.producer, m.seq, m.attempts)) = [("b", 2, 8)] ∧
    (taken empty cs).map (fun m => (m.producer, m.seq, m.attempts)) = [("a", 1, 1)] ∧
    ¬ (empty.calls cs).Names 1 ∧ ∃ n, ((empty.calls cs).recordAttempt 2).1 = .ok n := by
  let cs : List Call := [.enqueue ⟨"a", 3, [1], 2, 0⟩, .enqueue ⟨"b", 3, [2], 1, 7⟩, .peek, .removeFront 2,
    .recordAttempt 1, .removeFront 1, .recordAttempt 1, .removeFront 1, .recordAttempt 2]
  have hn : (entered cs).length < 2 ^ 64 := by decide
  obtain ⟨ho, hi, -⟩ := first_in_first_out cs hn
  refine ⟨cs, hn, by decide +kernel, by decide +kernel, ?_, (hi 2).2.mpr ⟨_, rfl, by decide +kernel⟩⟩
  exact ho.stale ⟨"a", 3, [1], 1, 1⟩ (by decide +kernel)

end Queue

end Switchboard
