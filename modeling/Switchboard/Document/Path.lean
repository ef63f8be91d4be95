import Switchboard.Decimal.Reader
import Switchboard.Document.Basic

/-!
# Paths into documents

A path such as `broker.commands[0]` leads through tables and lists. Laying a document over another
at a path makes what is missing on the way and merges tables field by field.
-/

namespace Switchboard

namespace Document

/-- The fields of a table. Anything else has none. -/
def fields : Document → List (String × Document)
  | table fields => fields
  | _ => []

/-- The items of a list. Anything else has none. -/
def items : Document → List Document
  | list items => items
  | _ => []

mutual

/-- Lay the second document over the first: tables are merged, anything else is replaced. -/
def overlay (d : Document) : Document → Document
  | table layer => table (overlayFields d.fields layer)
  | layer => layer

def overlayFields (fields : List (String × Document)) :
    List (String × Document) → List (String × Document)
  | [] => fields
  | (key, layer) :: rest =>
    overlayFields (putField fields key (overlay ((fieldOf? fields key).getD null) layer)) rest

end

end Document

inductive PathStep where
  | field (key : String)
  | item (i : Int)
deriving DecidableEq, Repr

structure Path where
  root : String
  steps : List PathStep
deriving DecidableEq, Repr

namespace Path

def isKeyChar (c : Char) : Bool := c.isAlphanum || c = '_' || c = '-'

/-- An index in brackets, whose opening bracket has been read. -/
def takeIndex? (cs : List Char) : Option (Int × List Char) := do
  let isSpace (c : Char) : Bool := c = ' ' || c = '\t'
  let cs := cs.dropWhile isSpace
  let isIndexChar (c : Char) : Bool := c = '-' || isDigitChar c
  let i ← readInteger? (cs.takeWhile isIndexChar)
  guard (fitsSigned i)
  match (cs.dropWhile isIndexChar).dropWhile isSpace with
  | ']' :: rest => some (i, rest)
  | _ => none

/-- The steps after the root, at most `n` of them. -/
def steps? : Nat → List Char → Option (List PathStep)
  | _, [] => some []
  | 0, _ => none
  | n + 1, '.' :: cs => do
    let key := cs.takeWhile isKeyChar
    guard !key.isEmpty
    let rest ← steps? n (cs.dropWhile isKeyChar)
    some (.field (.ofList key) :: rest)
  | n + 1, '[' :: cs => do
    let (i, cs) ← takeIndex? cs
    let rest ← steps? n cs
    some (.item i :: rest)
  | _, _ => none

def read? (key : String) : Option Path := do
  let cs := key.toList
  let root := cs.takeWhile isKeyChar
  guard !root.isEmpty
  let rest := cs.dropWhile isKeyChar
  some ⟨.ofList root, ← steps? rest.length rest⟩

/-- The path that a key stands for. A key that is no path names a field of the root. -/
def ofKey (key : String) : Path := (read? key).getD ⟨key, []⟩

/-- The list long enough for an index, with nulls added, and the position of the index. A negative
index counts from the end. -/
def reach (items : List Document) (i : Int) : List Document × Nat :=
  if 0 ≤ i then (items ++ List.replicate (i.toNat + 1 - items.length) .null, i.toNat)
  else
    let back := (-i).toNat
    (List.replicate (back - items.length) .null ++ items, items.length - back)

def change (f : Document → Document) : List PathStep → Document → Document
  | [], d => f d
  | .field key :: steps, d =>
    let old := (Document.fieldOf? d.fields key).getD .null
    .table (Document.putField d.fields key (change f steps old))
  | .item i :: steps, d =>
    let r := reach d.items i
    .list (r.1.modify r.2 (change f steps))

def lay (p : Path) (d layer : Document) : Document :=
  change (·.overlay layer) (.field p.root :: p.steps) d

end Path

end Switchboard
