import Switchboard.Broker.Dispatch

/-!
# A pass, one table at a time

Readers work on the tables of a broker while a pass is under way, and no lock spans two tables. A `Stage`
is the operation that a pass performs next, with all that the pass remembers; `advance` performs it.
-/

namespace Switchboard.Broker

inductive Stage where
  /-- Is anything queued? -/
  | queue
  /-- Is anyone registered? -/
  | roster
  | next
  | dequeue (e : Endpoint)
  | hand (e : Endpoint) (m : Message)
  | peek
  | resolve (m : Message)
  /-- List the consumers. -/
  | list (m : Message) (command : String)
  /-- Is `e` subscribed? `rest` is what comes after it in the list. -/
  | ask (m : Message) (command : String) (e : Endpoint) (rest : List Endpoint) (copies : Nat)
  | offer (m : Message) (command : String) (e : Endpoint) (rest : List Endpoint) (copies : Nat)
  | remove (m : Message) (copies : Nat)
  /-- Count a failed attempt. -/
  | count (m : Message)
  | discard (m : Message)
  | done (p : Pass)
deriving DecidableEq, Repr

/-- Go on with the list of consumers, or conclude when it is at its end. -/
def Stage.proceed (m : Message) (command : String) (copies : Nat) : List Endpoint → Stage
  | e :: rest => .ask m command e rest copies
  | [] => if copies = 0 then .count m else .remove m copies

variable {ω : Type}

/-- Perform the operation of a stage, which looks at one table or changes one, or sends under the lock of
the correlations. -/
def advance (c : Carrier ω) (b : Broker) (w : ω) : Stage → Stage × Broker × ω
  | .queue => (if b.queue.isEmpty then .done .idle else .roster, b, w)
  | .roster =>
    (if b.consumers.isEmpty then .done .idle
      else match b.mode with
        | .direct => .next
        | .command => .peek, b, w)
  | .next =>
    match b.consumers.next with
    | (.error _, _) => (.done .idle, b, w)
    | (.ok e, consumers) => (.dequeue e, { b with consumers }, w)
  | .dequeue e =>
    match b.queue.dequeue with
    | (.error _, _) => (.done .idle, b, w)
    | (.ok m, queue) => (.hand e m, { b with queue }, w)
  | .hand e m =>
    let r := deliver c m e b.answers w
    (.done (if r.1 then .dispatched 1 else .dropped), { b with answers := r.2.1 }, r.2.2)
  | .peek =>
    match b.queue.peek with
    | .error _ => (.done .idle, b, w)
    | .ok m => (.resolve m, b, w)
  | .resolve m =>
    match b.commands.resolve m.payload with
    | .error _ => (.count m, b, w)
    | .ok invocation => (.list m invocation.command.name, b, w)
  | .list m command => (.proceed m command 0 b.consumers.entries, b, w)
  | .ask m command e rest copies =>
    (if b.subscriptions.isSubscribed e.address command then .offer m command e rest copies
      else .proceed m command copies rest, b, w)
  | .offer m command e rest copies =>
    let r := deliver c m e b.answers w
    (.proceed m command (copies + r.1.toNat) rest, { b with answers := r.2.1 }, r.2.2)
  | .remove m copies => (.done (.dispatched copies), { b with queue := (b.queue.removeFront m.seq).2 }, w)
  | .count m =>
    match b.queue.recordAttempt m.seq with
    | (.error _, _) => (.done .idle, b, w)
    | (.ok attempts, queue) =>
      (if 0 < b.maxAttempts ∧ b.maxAttempts ≤ attempts then .discard m else .done .stalled,
        { b with queue }, w)
  | .discard m =>
    match b.queue.removeFront m.seq with
    | (.error _, _) => (.done .stalled, b, w)
    | (.ok _, queue) => (.done .dropped, { b with queue }, w)
  | .done p => (.done p, b, w)

end Switchboard.Broker
