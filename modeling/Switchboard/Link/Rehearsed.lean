import Switchboard.Endpoint

/-!
# Rehearsed links

A peer that only receives, and refuses the sends that were arranged beforehand.
-/

namespace Switchboard

structure RehearsedLink where
  /-- The local id of the next send that is accepted. -/
  nextId : UInt32
  /-- The positions of the sends to refuse, counted from zero. -/
  refuse : List Nat
  sends : Nat
  /-- What was accepted and not taken yet. -/
  received : List (UInt32 × Bytes)
deriving DecidableEq, Repr

namespace RehearsedLink

def arrange (firstId : UInt32) (refuse : List Nat) : RehearsedLink := ⟨firstId, refuse, 0, []⟩

def send (l : RehearsedLink) (data : Bytes) : Except Failure UInt32 × RehearsedLink :=
  let l' := { l with sends := l.sends + 1 }
  if l.refuse.contains l.sends then (.error (.sendFailure s!"scripted {l.sends}"), l')
  else (.ok l.nextId, { l' with nextId := l.nextId + 1, received := l.received ++ [(l.nextId, data)] })

def takeAll (l : RehearsedLink) : List (UInt32 × Bytes) × RehearsedLink :=
  (l.received, { l with received := [] })

end RehearsedLink

end Switchboard
