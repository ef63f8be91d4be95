import Switchboard.Document.Toml.Scalar
import Switchboard.Document.Toml.Tree
import Switchboard.Text.Escape

/-!
# Reading TOML

Each reader takes what it reads from the front of the characters and returns the rest. Values nest,
so their reader has a bound on its steps; every step takes a character, and the length of the text
is bound enough. Lists and inline tables nest to a limit, which bounds the parts of a key as well.
-/

namespace Switchboard.Toml

abbrev Reader (α : Type) := List Char → Option (α × List Char)

/-! ## Blanks, comments and line ends -/

def isSpace (c : Char) : Bool := c = ' ' || c = '\t'

def skipSpace (cs : List Char) : List Char := cs.dropWhile isSpace

/-- Characters that may stand in comments and quotes: all but the control characters, of which a tab
is allowed. -/
def isPlain (c : Char) : Bool := c = '\t' || (0x20 ≤ c.toNat && c.toNat ≠ 0x7F)

def skipComment (cs : List Char) : List Char :=
  match cs with
  | '#' :: rest => rest.dropWhile isPlain
  | _ => cs

def takeLineEnd? : List Char → Option (List Char)
  | '\n' :: rest => some rest
  | '\r' :: '\n' :: rest => some rest
  | _ => none

/-- Blanks and a comment up to the end of the line or of the text. -/
def endLine? (cs : List Char) : Option (List Char) :=
  match skipComment (skipSpace cs) with
  | [] => some []
  | rest => takeLineEnd? rest

/-- Skip blanks, comments and line ends. `comment` says whether a comment has begun. -/
def skipFillerFrom (comment : Bool) : List Char → List Char
  | [] => []
  | '\n' :: rest => skipFillerFrom false rest
  | '\r' :: '\n' :: rest => skipFillerFrom false rest
  | c :: rest =>
    if comment then if isPlain c then skipFillerFrom true rest else c :: rest
    else if isSpace c then skipFillerFrom false rest
    else if c = '#' then skipFillerFrom true rest
    else c :: rest

def skipFiller (cs : List Char) : List Char := skipFillerFrom false cs

/-! ## Quoted texts -/

/-- `n` hexadecimal digits that name a character. -/
def takeCodePoint? (n : Nat) (cs : List Char) : Option (Char × List Char) := do
  let ds := cs.take n
  guard (ds.length = n && ds.all fun c => (hexDigit? c).isSome)
  let v := ds.foldl (fun v c => v * 16 + (hexDigit? c).getD 0) 0
  guard (v < 0xD800 || (0xE000 ≤ v && v < 0x110000))
  some (.ofNat v, cs.drop n)

def takeEscape? : Reader Char
  | 'e' :: rest => some ('\x1B', rest)
  | 'x' :: rest => takeCodePoint? 2 rest
  | 'u' :: rest => takeCodePoint? 4 rest
  | 'U' :: rest => takeCodePoint? 8 rest
  | c :: rest => (shortEscape? c).map (·, rest)
  | [] => none

/-- What stands before the quote that ends a text, and what follows that quote. Gathered characters
are kept in reverse. -/
def cutQuoted (gathered : List Char) : Reader (List Char)
  | '"' :: rest => some (gathered.reverse, rest)
  | '\\' :: c :: rest => cutQuoted (c :: '\\' :: gathered) rest
  | c :: rest => cutQuoted (c :: gathered) rest
  | [] => none

/-- The text that characters between double quotes on one line stand for. -/
def unescape? : Nat → List Char → List Char → Option (List Char)
  | 0, _ => fun _ => none
  | n + 1, gathered => fun
    | '\\' :: rest => do
      let (c, rest) ← takeEscape? rest
      unescape? n (c :: gathered) rest
    | c :: rest => if isPlain c then unescape? n (c :: gathered) rest else none
    | [] => some gathered.reverse

def quoted : Reader (List Char) := fun cs => do
  let (written, rest) ← cutQuoted [] cs
  some (← unescape? (written.length + 1) [] written, rest)

/-- The rest of a text in single quotes on one line, which has no escapes. -/
def literal : Reader (List Char) := fun cs =>
  match cs.dropWhile fun c => isPlain c && c ≠ '\'' with
  | '\'' :: rest => some (cs.takeWhile fun c => isPlain c && c ≠ '\'', rest)
  | _ => none

def skipBlankLines : Nat → List Char → List Char
  | 0, cs => cs
  | n + 1, cs =>
    match takeLineEnd? (skipSpace cs) with
    | some rest => skipBlankLines n rest
    | none => skipSpace cs

/-- A line that ends in a backslash goes on at the next character that is no blank. -/
def continueLine? (cs : List Char) : Option (List Char) :=
  (takeLineEnd? (skipSpace cs)).map fun rest => skipBlankLines rest.length rest

/-- Quotes at the front of a text of several lines: three end it, and up to two more before them
belong to it. -/
def closing? (quote : Char) (cs : List Char) : Option (List Char × List Char) :=
  let run := (cs.takeWhile (· = quote)).length
  if 3 ≤ run && run ≤ 5 then some (List.replicate (run - 3) quote, cs.drop run) else none

/-- `c`, with `rest` behind it, may stand in a text of several lines, whose line ends are kept as they
are. -/
def isPlainInLines (c : Char) (rest : List Char) : Bool :=
  isPlain c || c = '\n' || (c = '\r' && rest.head? = some '\n')

/-- The rest of a text of several lines in three quotes of a kind. -/
def multiline (quote : Char) : Nat → List Char → Reader (List Char)
  | 0, _ => fun _ => none
  | n + 1, gathered => fun cs =>
    match closing? quote cs with
    | some (last, rest) => some (gathered.reverse ++ last, rest)
    | none =>
      match cs with
      | [] => none
      | c :: rest =>
        if c = '\\' && quote = '"' then
          match continueLine? rest with
          | some rest => multiline quote n gathered rest
          | none => do
            let (c, rest) ← takeEscape? rest
            multiline quote n (c :: gathered) rest
        else if c = quote then
          if (cs.takeWhile (· = quote)).length ≤ 2 then multiline quote n (c :: gathered) rest
          else none
        else if isPlainInLines c rest then multiline quote n (c :: gathered) rest
        else none

/-- The line end right after the opening quotes does not belong to the text. -/
def multilineText (quote : Char) : Reader String := fun cs => do
  let cs := (takeLineEnd? cs).getD cs
  let (text, rest) ← multiline quote (cs.length + 1) [] cs
  some (.ofList text, rest)

/-! ## Keys -/

def isBareKey (c : Char) : Bool := c.isAlphanum || c = '_' || c = '-'

def key : Reader String
  | '"' :: rest => do
    let (text, rest) ← quoted rest
    some (.ofList text, rest)
  | '\'' :: rest => do
    let (text, rest) ← literal rest
    some (.ofList text, rest)
  | cs =>
    let bare := cs.takeWhile isBareKey
    if bare.isEmpty then none else some (.ofList bare, cs.dropWhile isBareKey)

/-- At most `n` keys joined by points: all but the last, and the last. -/
def dottedKey : Nat → Reader (List String × String)
  | 0 => fun _ => none
  | n + 1 => fun cs => do
    let (k, rest) ← key (skipSpace cs)
    match skipSpace rest with
    | '.' :: rest => do
      let ((path, last), rest) ← dottedKey n rest
      some ((k :: path, last), rest)
    | rest => some (([], k), rest)

/-- Lists and inline tables nest no deeper, and a path of keys has no more parts. -/
def depthLimit : Nat := 80

def keyPath : Reader (List String × String) := dottedKey depthLimit

/-! ## Values -/

def isWordChar (c : Char) : Bool :=
  c.isAlphanum || c = '_' || c = '-' || c = '+' || c = '.' || c = ':'

/-- An unquoted value. A date may be parted from its time by a blank. -/
def word : Reader Document := fun cs =>
  let first := cs.takeWhile isWordChar
  let rest := cs.dropWhile isWordChar
  match takeDate? first, rest with
  | some (_, []), ' ' :: c :: rest' =>
    if isDigitChar c then
      (dateTime? (first ++ ' ' :: (c :: rest').takeWhile isWordChar)).map
        (·, (c :: rest').dropWhile isWordChar)
    else (scalar? first).map (·, rest)
  | _, _ => (scalar? first).map (·, rest)

mutual

/-- A value with at most `room` lists and inline tables in one another. -/
def value : Nat → Nat → Reader Document
  | 0, _ => fun _ => none
  | n + 1, room => fun cs =>
    match cs with
    | '"' :: '"' :: '"' :: rest => do
      let (s, rest) ← multilineText '"' rest
      some (.text s, rest)
    | '\'' :: '\'' :: '\'' :: rest => do
      let (s, rest) ← multilineText '\'' rest
      some (.text s, rest)
    | '"' :: _ | '\'' :: _ => do
      let (s, rest) ← key cs
      some (.text s, rest)
    | '[' :: rest => if room = 0 then none else items n (room - 1) [] rest
    | '{' :: rest => if room = 0 then none else inlineFields n (room - 1) [] rest
    | _ => word cs

def items : Nat → Nat → List Document → Reader Document
  | 0, _, _ => fun _ => none
  | n + 1, room, done => fun cs =>
    match skipFiller cs with
    | ']' :: rest => some (.list done.reverse, rest)
    | cs => do
      let (d, rest) ← value n room cs
      match skipFiller rest with
      | ',' :: rest => items n room (d :: done) rest
      | ']' :: rest => some (.list (d :: done).reverse, rest)
      | _ => none

/-- The rest of an inline table, which may take several lines. -/
def inlineFields : Nat → Nat → Fields → Reader Document
  | 0, _, _ => fun _ => none
  | n + 1, room, done => fun cs =>
    match skipFiller cs with
    | '}' :: rest => some ((Node.table .defined done).toDocument, rest)
    | cs => do
      let ((path, last), rest) ← keyPath cs
      let rest ← takeChar? '=' (skipFiller rest)
      let (d, rest) ← value n room (skipFiller rest)
      let done ← done.define path last d
      match skipFiller rest with
      | ',' :: rest => inlineFields n room done rest
      | '}' :: rest => some ((Node.table .defined done).toDocument, rest)
      | _ => none

end

/-! ## Lines -/

structure State where
  root : Fields
  /-- The path of the table that fields are defined in. -/
  header : List String

/-- One line that is not blank: a header or a field, whose value is read in at most `n` steps. The rest
begins after its line end. -/
def line? (n : Nat) (s : State) (cs : List Char) : Option (State × List Char) :=
  match cs with
  | '[' :: '[' :: rest => do
    let ((path, last), rest) ← keyPath rest
    let rest ← endLine? (← takeChar? ']' (← takeChar? ']' rest))
    some (⟨← s.root.openItem path last, path ++ [last]⟩, rest)
  | '[' :: rest => do
    let ((path, last), rest) ← keyPath rest
    let rest ← endLine? (← takeChar? ']' rest)
    some (⟨← s.root.openTable path last, path ++ [last]⟩, rest)
  | _ => do
    let ((path, last), rest) ← keyPath cs
    let rest ← takeChar? '=' rest
    let (d, rest) ← value n depthLimit (skipSpace rest)
    let rest ← endLine? rest
    let root ← s.root.atHeader s.header fun fields => fields.define path last d
    some (⟨root, s.header⟩, rest)

def lines? : Nat → State → List Char → Option State
  | 0, _, _ => none
  | n + 1, s, cs =>
    match skipFiller cs with
    | [] => some s
    | cs => do
      let (s, rest) ← line? (n + 1) s cs
      lines? n s rest

def dropMark : List Char → List Char
  | '\uFEFF' :: rest => rest
  | cs => cs

def read? (cs : List Char) : Option Document :=
  let cs := dropMark cs
  (lines? (cs.length + 1) ⟨[], []⟩ cs).map fun s => (Node.table .defined s.root).toDocument

end Switchboard.Toml
