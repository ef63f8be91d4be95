import Switchboard.Endpoint

/-!
# The consumer roster

Registered consumers in order of registration, served round robin. The cursor is the position of
the consumer that is served next; a removal in front of it moves it back by one, so that no consumer
is skipped.
-/

namespace Switchboard

structure Roster where
  entries : List Endpoint
  /-- The addresses of the entries, for membership. -/
  index : List Address
  cursor : Nat
deriving DecidableEq, Repr

namespace Roster

def empty : Roster := ⟨[], [], 0⟩

def size (r : Roster) : Nat := r.entries.length

def isEmpty (r : Roster) : Bool := r.entries.isEmpty

def contains (r : Roster) (a : Address) : Bool := r.index.contains a

/-- Append a consumer. An address that is registered keeps its first registration. -/
def add (r : Roster) (e : Endpoint) : Except Failure Unit × Roster :=
  if r.contains e.address then (.error .consumerAlreadyExists, r)
  else (.ok (), { r with entries := r.entries ++ [e], index := e.address :: r.index })

def remove (r : Roster) (a : Address) : Except Failure Endpoint × Roster :=
  if r.contains a then
    let index := r.index.erase a
    let pos := r.entries.findIdx (fun e => e.address = a)
    match r.entries[pos]? with
    | none => (.error .consumerNotFound, { r with index })
    | some e =>
      let cursor := if pos < r.cursor then r.cursor - 1 else r.cursor
      (.ok e, ⟨r.entries.eraseIdx pos, index, cursor⟩)
  else (.error .consumerNotFound, r)

def turn (r : Roster) : Nat := if r.cursor < r.entries.length then r.cursor else 0

def next (r : Roster) : Except Failure Endpoint × Roster :=
  match r.entries[r.turn]? with
  | none => (.error .consumerNotFound, r)
  | some e => (.ok e, { r with cursor := r.turn + 1 })

/-- The order in which the consumers will be served: from the cursor on, then those before it. -/
def order (r : Roster) : List Endpoint := r.entries.drop r.cursor ++ r.entries.take r.cursor

end Roster

end Switchboard
