import Switchboard.Dictionary
import Switchboard.Endpoint

/-!
# Correlations

Every copy of a request that reaches a consumer is recorded under the consumer's address and the
local id of that send. An answer under the same address and id is for the request's producer. A
record is taken at most once.
-/

namespace Switchboard

/-- A copy of a request: who got it, and under which id. -/
structure Delivery where
  consumer : Address
  id : UInt32
deriving DecidableEq, Repr

/-- Where the answer to a request goes. -/
structure Origin where
  producer : Address
  id : UInt32
deriving DecidableEq, Repr

structure Correlations where
  records : Dictionary Delivery Origin
deriving DecidableEq

namespace Correlations

def empty : Correlations := ⟨.empty⟩

def size (t : Correlations) : Nat := t.records.size

def get? (t : Correlations) (d : Delivery) : Option Origin := t.records.get? d

/-- Record a delivery, in place of an earlier one under the same id. -/
def record (t : Correlations) (d : Delivery) (o : Origin) : Correlations := ⟨t.records.insert d o⟩

/-- Record what a send to `consumer` came to: nothing if it failed. -/
def recordSent (t : Correlations) (consumer : Address) (o : Origin) :
    Except Failure UInt32 → Correlations
  | .ok id => t.record ⟨consumer, id⟩ o
  | .error _ => t

def take (t : Correlations) (d : Delivery) : Except Failure Origin × Correlations :=
  match t.get? d with
  | none => (.error .answerNotFound, t)
  | some o => (.ok o, ⟨t.records.erase d⟩)

end Correlations

end Switchboard
