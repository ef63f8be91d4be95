import Switchboard.Pending.Basic

/-!
# Callbacks that use the tracker

A callback runs after the tracker has been changed, and may make calls of its own on it, which may
start further callbacks. A `Session` performs calls and keeps the record of the callbacks that ran,
in the order in which they ended.
-/

namespace Switchboard

/-- A callback: a tag, and the calls `γ` that it makes each time it runs. -/
structure Callback (τ γ : Type) where
  tag : τ
  calls : List γ

/-- The outcome of a request, as its callback is told. -/
abbrev Outcome := Except Failure Bytes

inductive Call (τ : Type) where
  | add (id : UInt32) (payload : Bytes) (timeout : Nat) (callback : Callback τ (Call τ))
  /-- Send the payload and track it under the id that the send returns. -/
  | track (payload : Bytes) (timeout : Nat) (callback : Callback τ (Call τ))
      (sent : Except Failure UInt32)
  | answer (id : UInt32) (data : Bytes)
  | remove (id : UInt32)
  | contains (id : UInt32)
  | sweep (now : Nat)
  | size
  | mode

inductive Reply where
  | done
  | tracked (payload : Bytes) (result : Except Failure UInt32)
  | answered (result : Except Failure Unit)
  | flag (b : Bool)
  | swept (count : Nat)
  | size (n : Nat)
  | mode (m : AnswerMode)

/-- A callback that ran: what it was told, and what its own calls returned. -/
structure Ran (τ : Type) where
  tag : τ
  id : UInt32
  outcome : Outcome
  replies : List Reply

structure Session (τ : Type) where
  tracker : Tracker (Callback τ (Call τ))
  /-- The callbacks that ran, the last one first. -/
  ran : List (Ran τ)

namespace Session

variable {τ : Type}

def start (mode : AnswerMode) : Session τ := ⟨.empty mode, []⟩

def makeCalls (make : Call τ → Session τ → Reply × Session τ) :
    List (Call τ) → Session τ → List Reply × Session τ
  | [], s => ([], s)
  | c :: cs, s =>
    let r := make c s
    let rs := makeCalls make cs r.2
    (r.1 :: rs.1, rs.2)

def runCallback (make : Call τ → Session τ → Reply × Session τ) (k : Callback τ (Call τ))
    (id : UInt32) (outcome : Outcome) (s : Session τ) : Session τ :=
  let r := makeCalls make k.calls s
  { r.2 with ran := ⟨k.tag, id, outcome, r.1⟩ :: r.2.ran }

/-- Make a call, running the callbacks it starts with `run`. -/
def makeCall (run : Callback τ (Call τ) → UInt32 → Outcome → Session τ → Session τ) :
    Call τ → Session τ → Reply × Session τ
  | .add id payload timeout callback, s =>
    (.done, { s with tracker := s.tracker.add id ⟨payload, callback, timeout⟩ })
  | .track payload timeout callback sent, s =>
    (.tracked payload sent,
      { s with tracker := s.tracker.addSent ⟨payload, callback, timeout⟩ sent })
  | .answer id data, s =>
    match s.tracker.answer id with
    | (.error f, _) => (.answered (.error f), s)
    | (.ok k, tracker) => (.answered (.ok ()), run k id (.ok data) { s with tracker })
  | .remove id, s =>
    let r := s.tracker.remove id
    (.flag r.1, { s with tracker := r.2 })
  | .contains id, s => (.flag (s.tracker.contains id), s)
  | .sweep now, s =>
    let r := s.tracker.sweep now
    (.swept r.1.length,
      r.1.foldl (fun s e => run e.2 e.1 (.error (.timeout e.1)) s) { s with tracker := r.2 })
  | .size, s => (.size s.tracker.size, s)
  | .mode, s => (.mode s.tracker.mode, s)

/-- Make a call. Callbacks started at nesting `depth` run without making their own calls. -/
def perform : (depth : Nat) → Call τ → Session τ → Reply × Session τ
  | 0 => makeCall (runCallback fun _ s => (.done, s))
  | depth + 1 => makeCall (runCallback (perform depth))

end Session

end Switchboard
