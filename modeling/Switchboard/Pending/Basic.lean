import Switchboard.Dictionary
import Switchboard.Failure
import Switchboard.Text.Utf8

/-!
# Pending requests

A producer's book of the requests that expect an answer. Each entry has a callback, of any type `κ`,
and a deadline in milliseconds. Answering and sweeping say which callbacks have to be run; running
them is left to the caller, so that a callback may use the book again.
-/

namespace Switchboard

/-- How many answers a request expects: one, or as many as arrive before it expires. -/
inductive AnswerMode where
  | single
  | multiple
deriving DecidableEq, Repr

structure PendingRequest (κ : Type) where
  payload : Bytes
  callback : κ
  deadline : Nat

structure Tracker (κ : Type) where
  mode : AnswerMode
  pending : Dictionary UInt32 (PendingRequest κ)

namespace Tracker

variable {κ : Type}

def empty (mode : AnswerMode) : Tracker κ := ⟨mode, .empty⟩

def size (t : Tracker κ) : Nat := t.pending.size

def isEmpty (t : Tracker κ) : Bool := t.pending.isEmpty

def contains (t : Tracker κ) (id : UInt32) : Bool := t.pending.contains id

/-- Expect an answer to request `id`, in place of an earlier request of that id. -/
def add (t : Tracker κ) (id : UInt32) (r : PendingRequest κ) : Tracker κ :=
  { t with pending := t.pending.insert id r }

/-- Expect an answer to a request under the id that its send returned: nothing if the send failed. -/
def addSent (t : Tracker κ) (r : PendingRequest κ) : Except Failure UInt32 → Tracker κ
  | .ok id => t.add id r
  | .error _ => t

/-- Forget a request. Its callback is not run. -/
def remove (t : Tracker κ) (id : UInt32) : Bool × Tracker κ :=
  (t.contains id, { t with pending := t.pending.erase id })

/-- The callback to run with an answer to request `id`. A single answer completes the request. -/
def answer (t : Tracker κ) (id : UInt32) : Except Failure κ × Tracker κ :=
  match t.pending.get? id with
  | none => (.error .messageNotFound, t)
  | some r =>
    (.ok r.callback, match t.mode with
      | .single => { t with pending := t.pending.erase id }
      | .multiple => t)

/-- Remove every request whose deadline is at or before `now`. Their callbacks are to be run with
the timeout of their id. -/
def sweep (t : Tracker κ) (now : Nat) : List (UInt32 × κ) × Tracker κ :=
  ((t.pending.filter fun _ r => r.deadline ≤ now).entries.map fun e => (e.1, e.2.callback),
    { t with pending := t.pending.filter fun _ r => !(r.deadline ≤ now) })

end Tracker

end Switchboard
