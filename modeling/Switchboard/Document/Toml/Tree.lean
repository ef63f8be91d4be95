import Switchboard.Document.Basic

/-!
# TOML tables under construction

Which tables may still be extended, and by what: a table defined by a header is complete for dotted
keys, a table that only a longer header mentions may still be defined or be extended by dotted keys,
a table made or extended by dotted keys may no longer be defined, and a value is closed.
-/

namespace Switchboard.Toml

inductive TableKind where
  /-- Defined by a header of its own. -/
  | defined
  /-- Mentioned by a longer header. -/
  | implied
  /-- Made or extended by a dotted key. -/
  | dotted
deriving DecidableEq

inductive Node where
  | value (d : Document)
  | table (kind : TableKind) (fields : List (String × Node))
  /-- An array of tables; the last one is first. -/
  | tables (items : List (List (String × Node)))

abbrev Fields := List (String × Node)

namespace Fields

def get? (fields : Fields) (key : String) : Option Node :=
  (List.find? (fun f => f.1 = key) fields).map Prod.snd

def put (fields : Fields) (key : String) (n : Node) : Fields :=
  match fields with
  | [] => [(key, n)]
  | (k, v) :: rest => if k = key then (k, n) :: rest else (k, v) :: put rest key n

/-- Change the table that a path of keys leads to. Missing tables are made, of kind `made`; of an
array of tables the last one is meant. A dotted path enters no table that has a header, and makes
those that it enters its own. -/
def descend (made : TableKind) (kind : TableKind) (fields : Fields) (path : List String)
    (change : TableKind → Fields → Option Fields) : Option Fields :=
  match path with
  | [] => change kind fields
  | key :: path =>
    match get? fields key with
    | none => do
      let inner ← descend made made [] path change
      some (put fields key (.table made inner))
    | some (.table kind inner) => do
      guard (!(made = .dotted && kind = .defined))
      let kind := if made = .dotted then .dotted else kind
      let inner ← descend made kind inner path change
      some (put fields key (.table kind inner))
    | some (.tables (last :: items)) => do
      let last ← descend made .defined last path change
      some (put fields key (.tables (last :: items)))
    | some _ => none

/-- Change the table that the current header names. -/
def atHeader (fields : Fields) (header : List String) (change : Fields → Option Fields) :
    Option Fields :=
  descend .implied .defined fields header fun _ => change

def define (fields : Fields) (path : List String) (key : String) (d : Document) : Option Fields :=
  descend .dotted .defined fields path fun kind inner => do
    guard (path.isEmpty || kind = .dotted)
    guard (get? inner key).isNone
    some (put inner key (.value d))

def openTable (fields : Fields) (path : List String) (key : String) : Option Fields :=
  descend .implied .defined fields path fun _ inner =>
    match get? inner key with
    | none => some (put inner key (.table .defined []))
    | some (.table .implied old) => some (put inner key (.table .defined old))
    | some _ => none

def openItem (fields : Fields) (path : List String) (key : String) : Option Fields :=
  descend .implied .defined fields path fun _ inner =>
    match get? inner key with
    | none => some (put inner key (.tables [[]]))
    | some (.tables items) => some (put inner key (.tables ([] :: items)))
    | some _ => none

end Fields

mutual

def Node.toDocument : Node → Document
  | .value d => d
  | .table _ fields => .table (fieldDocuments fields)
  | .tables items => .list (itemDocuments items).reverse

def fieldDocuments : List (String × Node) → List (String × Document)
  | [] => []
  | (key, n) :: rest => (key, n.toDocument) :: fieldDocuments rest

def itemDocuments : List (List (String × Node)) → List Document
  | [] => []
  | fields :: rest => .table (fieldDocuments fields) :: itemDocuments rest

end

end Switchboard.Toml
