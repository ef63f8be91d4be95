import Switchboard.Failure
import Switchboard.Text.Utf8

/-!
# Endpoints

One side of a connection, as the local process sees it. Two endpoints may have one address; the
connection and the side tell them apart.
-/

namespace Switchboard

abbrev Address := String

/-- The sides of a connection: the one that opened it, and the one that accepted it. -/
inductive Side where
  | near
  | far
deriving DecidableEq, Repr

def Side.other : Side → Side
  | near => far
  | far => near

/-- The peer at `address`, reached through one side of a connection. -/
structure Endpoint where
  address : Address
  connection : Nat
  side : Side
deriving DecidableEq, Repr

/-- What arrives on a connection. `id` is the local message id that the sender's side assigned. -/
inductive Event where
  | connected
  | disconnected
  | received (id : UInt32) (data : Bytes)
deriving DecidableEq, Repr

/-- What becomes of a datagram given to an endpoint when the connections are in state `ω`: it is
accepted under a local id or refused, and the connections change. -/
structure Carrier (ω : Type) where
  send : ω → Endpoint → Bytes → Except Failure UInt32 × ω

end Switchboard
