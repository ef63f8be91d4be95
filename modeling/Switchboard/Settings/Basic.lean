import Switchboard.Broker.Basic
import Switchboard.Producer

/-!
# Settings

The settings of a broker and of the producers that use it, with their defaults.
-/

namespace Switchboard

structure ServerSettings where
  host : String := "127.0.0.1"
  port : Nat := 8080
deriving DecidableEq, Repr

structure BrokerSettings where
  mode : DispatchMode := .direct
  /-- Failed passes after which an undeliverable request is dropped; zero keeps it. -/
  maxAttempts : Nat := 16
  commands : List String := []
deriving DecidableEq, Repr

structure ProducerSettings where
  answerMode : AnswerMode := .single
  requestTimeout : Nat := 5000
  sweepInterval : Nat := 1000
deriving DecidableEq, Repr

structure LogSettings where
  level : String := "info"
deriving DecidableEq, Repr

structure Settings where
  server : ServerSettings := {}
  broker : BrokerSettings := {}
  producer : ProducerSettings := {}
  log : LogSettings := {}
deriving DecidableEq, Repr

def Settings.serverAddress (s : Settings) : String := s!"{s.server.host}:{s.server.port}"

/-- A producer sweeps at least every millisecond. -/
def ProducerSettings.options (s : ProducerSettings) : ProducerOptions :=
  ⟨s.answerMode, s.requestTimeout, max s.sweepInterval 1⟩

def BrokerSettings.broker (s : BrokerSettings) : Broker :=
  .fresh s.mode (.ofNames s.commands) (.ofNat s.maxAttempts)

end Switchboard
