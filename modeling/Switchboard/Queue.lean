import Switchboard.Endpoint

/-!
# The message queue

Requests that wait for a consumer, first in, first out. A sequence number identifies each, so that
the front can be removed only while it is still the message that was looked at.
-/

namespace Switchboard

/-- A producer's request. The producer's address and id say where the answer goes; `attempts` counts
the dispatch passes that could not deliver it. -/
structure Message where
  producer : Address
  producerId : UInt32
  payload : Bytes
  seq : UInt64 := 0
  attempts : UInt32 := 0
deriving DecidableEq, Repr

structure Queue where
  /-- The waiting messages, the front first. -/
  messages : List Message
  lastSeq : UInt64
deriving DecidableEq, Repr

namespace Queue

def empty : Queue := ⟨[], 0⟩

def size (q : Queue) : Nat := q.messages.length

def isEmpty (q : Queue) : Bool := q.messages.isEmpty

def enqueue (q : Queue) (m : Message) : UInt64 × Queue :=
  let seq := q.lastSeq + 1
  (seq, ⟨q.messages ++ [{ m with seq }], seq⟩)

def peek (q : Queue) : Except Failure Message :=
  match q.messages with
  | [] => .error .messageNotFound
  | m :: _ => .ok m

def dequeue (q : Queue) : Except Failure Message × Queue :=
  match q.messages with
  | [] => (.error .messageNotFound, q)
  | m :: ms => (.ok m, { q with messages := ms })

/-- Remove the front if it is the message numbered `seq`. -/
def removeFront (q : Queue) (seq : UInt64) : Except Failure Message × Queue :=
  match q.messages with
  | [] => (.error .messageNotFound, q)
  | m :: ms => if m.seq = seq then (.ok m, { q with messages := ms }) else (.error .messageNotFound, q)

/-- Count one more failed attempt on the front if it is the message numbered `seq`. -/
def recordAttempt (q : Queue) (seq : UInt64) : Except Failure UInt32 × Queue :=
  match q.messages with
  | [] => (.error .messageNotFound, q)
  | m :: ms =>
    if m.seq = seq then
      (.ok (m.attempts + 1), { q with messages := { m with attempts := m.attempts + 1 } :: ms })
    else (.error .messageNotFound, q)

/-! ## What the operations at the front can do -/

theorem dequeue_cases (q : Queue) : (∃ f, q.dequeue = (.error f, q)) ∨
    ∃ m ms, q.messages = m :: ms ∧ q.dequeue = (.ok m, { q with messages := ms }) := by
  unfold dequeue
  cases hq : q.messages with
  | nil => exact .inl ⟨_, rfl⟩
  | cons m ms => exact .inr ⟨m, ms, rfl, rfl⟩

theorem removeFront_cases (q : Queue) (seq : UInt64) : (∃ f, q.removeFront seq = (.error f, q)) ∨
    ∃ m ms, q.messages = m :: ms ∧ q.removeFront seq = (.ok m, { q with messages := ms }) := by
  unfold removeFront
  cases hq : q.messages with
  | nil => exact .inl ⟨_, rfl⟩
  | cons m ms =>
    by_cases hs : m.seq = seq
    · exact .inr ⟨m, ms, rfl, if_pos hs⟩
    · exact .inl ⟨_, if_neg hs⟩

theorem recordAttempt_cases (q : Queue) (seq : UInt64) : (∃ f, q.recordAttempt seq = (.error f, q)) ∨
    ∃ m ms, q.messages = m :: ms ∧ q.recordAttempt seq = (.ok (m.attempts + 1),
      { q with messages := { m with attempts := m.attempts + 1 } :: ms }) := by
  unfold recordAttempt
  cases hq : q.messages with
  | nil => exact .inl ⟨_, rfl⟩
  | cons m ms =>
    by_cases hs : m.seq = seq
    · exact .inr ⟨m, ms, rfl, if_pos hs⟩
    · exact .inl ⟨_, if_neg hs⟩

section
variable {q : Queue} {m : Message} {ms : List Message}

theorem peek_of_front (h : q.messages = m :: ms) : q.peek = .ok m := by
  unfold peek; rw [h]

theorem dequeue_of_front (h : q.messages = m :: ms) : q.dequeue = (.ok m, { q with messages := ms }) := by
  unfold dequeue; rw [h]

theorem removeFront_of_front (h : q.messages = m :: ms) {seq : UInt64} (hs : m.seq = seq) :
    q.removeFront seq = (.ok m, { q with messages := ms }) := by
  unfold removeFront; rw [h]
  exact if_pos hs

theorem recordAttempt_of_front (h : q.messages = m :: ms) {seq : UInt64} (hs : m.seq = seq) :
    q.recordAttempt seq = (.ok (m.attempts + 1),
      { q with messages := { m with attempts := m.attempts + 1 } :: ms }) := by
  unfold recordAttempt; rw [h]
  exact if_pos hs

end

end Queue

end Switchboard
