import Switchboard.Command.Basic
import Switchboard.Dictionary

/-!
# The command catalogue

The commands a broker accepts, each with a template such as `{game}/{region}` that names
its positional parameters, and the resolution of a payload against it.
-/

namespace Switchboard

structure CommandSpec where
  name : String
  template : String
  description : String
deriving DecidableEq, Repr

structure Invocation where
  command : Command
  vars : Dictionary String String
deriving DecidableEq

def sortNames (names : List String) : List String := names.mergeSort (fun a b => decide (a ≤ b))

structure Catalogue where
  specs : Dictionary String CommandSpec
deriving DecidableEq

namespace Catalogue

def empty : Catalogue := ⟨.empty⟩

/-- Add a command, in place of an earlier one of its name. -/
def register (c : Catalogue) (spec : CommandSpec) : Catalogue := ⟨c.specs.insert spec.name spec⟩

/-- A catalogue of bare names, without templates. -/
def ofNames (names : List String) : Catalogue :=
  names.foldl (fun c name => c.register ⟨name, "", ""⟩) empty

def get? (c : Catalogue) (name : String) : Option CommandSpec := c.specs.get? name

def unregister (c : Catalogue) (name : String) : Option CommandSpec × Catalogue :=
  (c.get? name, ⟨c.specs.erase name⟩)

def contains (c : Catalogue) (name : String) : Bool := c.specs.contains name

def names (c : Catalogue) : List String := sortNames c.specs.keys

def size (c : Catalogue) : Nat := c.specs.size

/-! ## Resolving a payload -/

def isBrace (c : Char) : Bool := c = '{' || c = '}'

def trimBraces (cs : List Char) : List Char :=
  ((cs.dropWhile isBrace).reverse.dropWhile isBrace).reverse

/-- The parameter names of a template: its fields up to the first empty one, without braces. -/
def templateNames (template : String) : List String :=
  let fields := Fields.split Command.separator template.toList
  ((fields.1 :: fields.2).takeWhile (fun f => !f.isEmpty)).map fun f => .ofList (trimBraces f)

/-- Pair names with parameters by position. A name without a parameter gets the empty text, a
parameter without a name is left out. -/
def bind : List String → List String → List (String × String)
  | [], _ => []
  | n :: ns, [] => (n, "") :: bind ns []
  | n :: ns, p :: ps => (n, p) :: bind ns ps

def resolve (c : Catalogue) (data : Bytes) : Except Failure Invocation :=
  match Command.ofBytes data with
  | .error e => .error e
  | .ok command =>
    match c.get? command.name with
    | none => .error (.commandNotFound command.name)
    | some spec => .ok ⟨command, .ofList (bind (templateNames spec.template) command.params)⟩

end Catalogue

end Switchboard
