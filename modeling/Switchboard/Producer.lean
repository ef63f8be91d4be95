import Switchboard.Endpoint
import Switchboard.Packet
import Switchboard.Pending.Basic

/-!
# Producers

A producer sends requests to the broker and matches the answer packets that come back. A request may
have a callback of any type `κ`, or a future that holds the first outcome.
-/

namespace Switchboard

structure ProducerOptions where
  answerMode : AnswerMode := .single
  /-- Milliseconds until a request expires. -/
  requestTimeout : Nat := 5000
  /-- Milliseconds between two sweeps. -/
  sweepInterval : Nat := 1000
deriving DecidableEq, Repr

/-- Who learns what becomes of a request. -/
inductive Waiter (κ : Type) where
  | callback (k : κ)
  | future (slot : Nat)

/-- A request whose first outcome is kept in a slot. -/
structure Future where
  id : UInt32
  slot : Nat
deriving DecidableEq, Repr

structure Notice (κ : Type) where
  callback : κ
  id : UInt32
  outcome : Except Failure Bytes

structure Producer (κ : Type) where
  broker : Endpoint
  options : ProducerOptions
  tracker : Tracker (Waiter κ)
  /-- The first outcome of each future that has one. -/
  outcomes : Dictionary Nat (Except Failure Bytes)
  futures : Nat

namespace Producer

variable {κ ω : Type}

def ofOptions (broker : Endpoint) (options : ProducerOptions) : Producer κ :=
  ⟨broker, options, .empty options.answerMode, .empty, 0⟩

def send (c : Carrier ω) (p : Producer κ) (payload : Bytes) (w : ω) : Except Failure UInt32 × ω :=
  c.send w p.broker payload

/-- Send at time `now` a request that `waiter` waits for. Without a timeout it is given the
configured one. -/
def sendWith (c : Carrier ω) (p : Producer κ) (payload : Bytes) (timeout : Option Nat)
    (waiter : Waiter κ) (now : Nat) (w : ω) : Except Failure UInt32 × Producer κ × ω :=
  let r := c.send w p.broker payload
  let deadline := now + timeout.getD p.options.requestTimeout
  (r.1, { p with tracker := p.tracker.addSent ⟨payload, waiter, deadline⟩ r.1 }, r.2)

/-- Send a request and keep its first outcome. -/
def request (c : Carrier ω) (p : Producer κ) (payload : Bytes) (now : Nat) (w : ω) :
    Except Failure Future × Producer κ × ω :=
  let r := sendWith c p payload none (.future p.futures) now w
  (r.1.map fun id => ⟨id, p.futures⟩, { r.2.1 with futures := p.futures + 1 }, r.2.2)

def awaits (p : Producer κ) (slot : Nat) : Bool :=
  p.tracker.pending.entries.any fun e =>
    match e.2.callback with
    | .future s => s = slot
    | .callback _ => false

/-- The outcome of a future. One whose request is no longer tracked has timed out. -/
def poll (p : Producer κ) (f : Future) : Option (Except Failure Bytes) :=
  match p.outcomes.get? f.slot with
  | some outcome => some outcome
  | none => if p.awaits f.slot then none else some (.error (.timeout f.id))

def forget (p : Producer κ) (id : UInt32) : Bool × Producer κ :=
  let r := p.tracker.remove id
  (r.1, { p with tracker := r.2 })

/-- Tell a waiter. A future keeps the first outcome it is told. -/
def tell (p : Producer κ) (waiter : Waiter κ) (id : UInt32) (outcome : Except Failure Bytes) :
    List (Notice κ) × Producer κ :=
  match waiter with
  | .callback k => ([⟨k, id, outcome⟩], p)
  | .future slot =>
    if p.outcomes.contains slot then ([], p)
    else ([], { p with outcomes := p.outcomes.insert slot outcome })

def handleEvent (p : Producer κ) : Event → List (Notice κ) × Producer κ
  | .connected | .disconnected => ([], p)
  | .received _ data =>
    match Packet.decode data with
    | .error _ => ([], p)
    | .ok answer =>
      match p.tracker.answer answer.id with
      | (.error _, _) => ([], p)
      | (.ok waiter, tracker) => { p with tracker }.tell waiter answer.id (.ok answer.payload)

def tellTimeouts : List (UInt32 × Waiter κ) → Producer κ → List (Notice κ) × Producer κ
  | [], p => ([], p)
  | (id, waiter) :: rest, p =>
    let r := p.tell waiter id (.error (.timeout id))
    let s := tellTimeouts rest r.2
    (r.1 ++ s.1, s.2)

/-- Expire the requests whose deadline is at or before `now`, and say how many they were. -/
def sweep (p : Producer κ) (now : Nat) : Nat × List (Notice κ) × Producer κ :=
  let r := p.tracker.sweep now
  (r.1.length, tellTimeouts r.1 { p with tracker := r.2 })

/-! ## The task that drives a producer -/

/-- A task serves its link until it closes, then drains: it sweeps until nothing is pending. -/
inductive Stage where
  | serving
  | draining
  | finished
deriving DecidableEq, Repr

structure Task (κ : Type) where
  producer : Producer κ
  stage : Stage

namespace Task

def settleStage (p : Producer κ) : Stage := if p.tracker.isEmpty then .finished else .draining

def handleEvent (t : Task κ) (event : Event) : List (Notice κ) × Task κ :=
  let r := t.producer.handleEvent event
  (r.1, ⟨r.2, match event with
    | .disconnected => settleStage r.2
    | _ => t.stage⟩)

def tick (t : Task κ) (now : Nat) : List (Notice κ) × Task κ :=
  match t.stage with
  | .finished => ([], t)
  | .serving =>
    let r := t.producer.sweep now
    (r.2.1, ⟨r.2.2, .serving⟩)
  | .draining =>
    let r := t.producer.sweep now
    (r.2.1, ⟨r.2.2, settleStage r.2.2⟩)

end Task

end Producer

end Switchboard
