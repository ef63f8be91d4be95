import Switchboard.Correlations
import Switchboard.Packet
import Switchboard.Queue
import Switchboard.Roster
import Switchboard.Subscriptions

/-!
# The broker

The state of a broker: its queue and the tables that route requests to consumers and answers to
producers.
-/

namespace Switchboard

/-- How requests are handed out: each to the next consumer in turn, or a copy to every consumer
subscribed to the request's command. -/
inductive DispatchMode where
  | direct
  | command
deriving DecidableEq, Repr

structure Broker where
  mode : DispatchMode
  /-- Failed passes after which an undeliverable request is dropped; zero keeps it. -/
  maxAttempts : UInt32
  commands : Catalogue
  queue : Queue
  consumers : Roster
  answers : Correlations
  subscriptions : Subscriptions
  /-- Connected peers, so that an answer finds the producer known only by its address. -/
  peers : Dictionary Address Endpoint
  /-- The dispatch loop has been woken since it last waited. -/
  woken : Bool
deriving DecidableEq

structure BrokerStats where
  queued : Nat
  consumers : Nat
  pendingAnswers : Nat
  subscribedConsumers : Nat
  peers : Nat
deriving DecidableEq, Repr

namespace Broker

def defaultMaxAttempts : UInt32 := 16

def fresh (mode : DispatchMode) (commands : Catalogue := .empty)
    (maxAttempts : UInt32 := defaultMaxAttempts) : Broker where
  mode
  maxAttempts
  commands
  queue := .empty
  consumers := .empty
  answers := .empty
  subscriptions := .empty
  peers := .empty
  woken := false

def wake (b : Broker) : Broker := { b with woken := true }

def stats (b : Broker) : BrokerStats where
  queued := b.queue.size
  consumers := b.consumers.size
  pendingAnswers := b.answers.size
  subscribedConsumers := b.subscriptions.size
  peers := b.peers.size

end Broker

end Switchboard
