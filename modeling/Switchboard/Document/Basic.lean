/-!
# Documents

The values that configuration files and messages are made of.
-/

namespace Switchboard

inductive Document where
  | null
  | boolean (b : Bool)
  | integer (n : Int)
  | decimal (x : Float)
  | text (s : String)
  | list (items : List Document)
  | table (fields : List (String × Document))
deriving Inhabited

namespace Document

/-- Give a field a value: in place if there is one of that name, else at the end. -/
def putField (fields : List (String × Document)) (key : String) (d : Document) :
    List (String × Document) :=
  match fields with
  | [] => [(key, d)]
  | (k, v) :: rest => if k = key then (k, d) :: rest else (k, v) :: putField rest key d

def fieldOf? (fields : List (String × Document)) (key : String) : Option Document :=
  (fields.find? fun f => f.1 = key).map Prod.snd

def field? (d : Document) (key : String) : Option Document :=
  match d with
  | table fields => fieldOf? fields key
  | _ => none

end Document

end Switchboard
