import Switchboard.Command.Catalogue
import Switchboard.Endpoint

/-!
# Subscriptions

Which consumer wants the requests of which command: for each consumer the set of its commands,
without repetition. A consumer without commands has no entry.
-/

namespace Switchboard

structure Subscriptions where
  sets : Dictionary Address (List String)
deriving DecidableEq

namespace Subscriptions

def empty : Subscriptions := ⟨.empty⟩

/-- The commands of a consumer, in no particular order. -/
def of (s : Subscriptions) (consumer : Address) : List String := (s.sets.get? consumer).getD []

/-- Whether the subscription is new, and the table with it. -/
def subscribe (s : Subscriptions) (consumer : Address) (command : String) : Bool × Subscriptions :=
  (!(s.of consumer).contains command, ⟨s.sets.insert consumer ((s.of consumer).insert command)⟩)

/-- Whether there was such a subscription, and the table without it. -/
def unsubscribe (s : Subscriptions) (consumer : Address) (command : String) :
    Bool × Subscriptions :=
  match s.sets.get? consumer with
  | none => (false, s)
  | some set =>
    let rest := set.erase command
    (set.contains command, ⟨if rest.isEmpty then s.sets.erase consumer else s.sets.insert consumer rest⟩)

def isSubscribed (s : Subscriptions) (consumer : Address) (command : String) : Bool :=
  (s.of consumer).contains command

def dropAll (s : Subscriptions) (consumer : Address) : Subscriptions := ⟨s.sets.erase consumer⟩

def commands (s : Subscriptions) (consumer : Address) : List String := sortNames (s.of consumer)

def size (s : Subscriptions) : Nat := s.sets.size

end Subscriptions

end Switchboard
