import Switchboard.Broker.Basic

/-!
# Dispatch

A pass takes the front of the queue to the consumers; `drain` repeats passes while they make
progress. In direct mode a request goes to the consumer whose turn it is, and a failed send drops it.
In command mode a copy goes to every subscribed consumer, and the request stays at the front until a
pass delivers it or the allowed number of passes has failed.
-/

namespace Switchboard

/-- What a dispatch pass came to. -/
inductive Pass where
  | idle
  /-- The request reached this many consumers and left the queue. -/
  | dispatched (copies : Nat)
  /-- The request left the queue undelivered. -/
  | dropped
  /-- The request stays at the front. -/
  | stalled
deriving DecidableEq, Repr

def Pass.madeProgress : Pass → Bool
  | dispatched _ | dropped => true
  | idle | stalled => false

namespace Broker

variable {ω : Type}

/-- Send a copy of `m` to a consumer and record where its answer goes. -/
def deliver (c : Carrier ω) (m : Message) (e : Endpoint) (answers : Correlations) (w : ω) :
    Bool × Correlations × ω :=
  let r := c.send w e m.payload
  (r.1.isOk, answers.recordSent e.address ⟨m.producer, m.producerId⟩ r.1, r.2)

/-- Offer a copy of `m` to each consumer in turn, and count the copies that were sent. -/
def offer (c : Carrier ω) (m : Message) : List Endpoint → Correlations → ω → Nat × Correlations × ω
  | [], answers, w => (0, answers, w)
  | e :: es, answers, w =>
    let r := deliver c m e answers w
    let s := offer c m es r.2.1 r.2.2
    (s.1 + r.1.toNat, s.2)

def dispatchDirect (c : Carrier ω) (b : Broker) (w : ω) : Pass × Broker × ω :=
  match b.consumers.next with
  | (.error _, _) => (.idle, b, w)
  | (.ok e, consumers) =>
    match b.queue.dequeue with
    | (.error _, _) => (.idle, { b with consumers }, w)
    | (.ok m, queue) =>
      let r := deliver c m e b.answers w
      (if r.1 then .dispatched 1 else .dropped,
        { b with consumers, queue, answers := r.2.1 }, r.2.2)

/-- Count a failed attempt on `m`, and drop it when it has had as many as are allowed. -/
def stall (b : Broker) (m : Message) : Pass × Broker :=
  match b.queue.recordAttempt m.seq with
  | (.error _, _) => (.idle, b)
  | (.ok attempts, queue) =>
    if 0 < b.maxAttempts ∧ b.maxAttempts ≤ attempts then
      match queue.removeFront m.seq with
      | (.ok _, queue) => (.dropped, { b with queue })
      | (.error _, _) => (.stalled, { b with queue })
    else (.stalled, { b with queue })

def subscribers (b : Broker) (command : String) : List Endpoint :=
  b.consumers.entries.filter fun e => b.subscriptions.isSubscribed e.address command

def dispatchCommand (c : Carrier ω) (b : Broker) (w : ω) : Pass × Broker × ω :=
  match b.queue.peek with
  | .error _ => (.idle, b, w)
  | .ok m =>
    match b.commands.resolve m.payload with
    | .error _ =>
      let r := b.stall m
      (r.1, r.2, w)
    | .ok invocation =>
      let r := offer c m (b.subscribers invocation.command.name) b.answers w
      let b := { b with answers := r.2.1 }
      if r.1 = 0 then
        let s := b.stall m
        (s.1, s.2, r.2.2)
      else (.dispatched r.1, { b with queue := (b.queue.removeFront m.seq).2 }, r.2.2)

def dispatch (c : Carrier ω) (b : Broker) (w : ω) : Pass × Broker × ω :=
  if b.queue.isEmpty || b.consumers.isEmpty then (.idle, b, w)
  else match b.mode with
    | .direct => dispatchDirect c b w
    | .command => dispatchCommand c b w

/-! ## Draining -/

theorem stall_size {b : Broker} {m : Message} (h : (b.stall m).1.madeProgress = true) :
    (b.stall m).2.queue.size < b.queue.size := by
  revert h
  unfold stall Queue.recordAttempt
  cases hq : b.queue.messages with
  | nil => simp [Pass.madeProgress]
  | cons m' ms =>
    by_cases hs : m'.seq = m.seq
    · simp only [hs, ite_true]
      split
      · simp [Queue.removeFront, Queue.size, hq]
      · simp [Pass.madeProgress]
    · simp [hs, Pass.madeProgress]

/-- A pass that makes progress takes a request from the queue. -/
theorem dispatch_size {c : Carrier ω} {b : Broker} {w : ω}
    (h : (dispatch c b w).1.madeProgress = true) :
    (dispatch c b w).2.1.queue.size < b.queue.size := by
  revert h
  unfold dispatch
  split
  · simp [Pass.madeProgress]
  · split
    · unfold dispatchDirect Queue.dequeue
      cases b.consumers.next with
      | mk r consumers =>
        cases r with
        | error _ => simp [Pass.madeProgress]
        | ok e => cases hq : b.queue.messages <;> simp [Pass.madeProgress, Queue.size, hq]
    · unfold dispatchCommand Queue.peek
      cases hq : b.queue.messages with
      | nil => simp [Pass.madeProgress]
      | cons m ms =>
        dsimp only
        split
        · exact stall_size
        · split
          · exact stall_size
          · simp [Queue.removeFront, Queue.size, hq]

/-- Repeat passes until one makes no progress. The result counts the requests that left the
queue. -/
def drain (c : Carrier ω) (b : Broker) (w : ω) : Nat × Broker × ω :=
  let r := dispatch c b w
  if h : r.1.madeProgress = true then
    let s := drain c r.2.1 r.2.2
    (s.1 + 1, s.2)
  else (0, r.2)
termination_by b.queue.size
decreasing_by exact dispatch_size h

end Broker

end Switchboard
