import Switchboard.Decimal.Reader
import Switchboard.Document.Basic
import Switchboard.Text.Escape

/-!
# JSON

A reader of JSON texts, one character at a time: characters are gathered into tokens, and tokens are
fed to a machine that keeps the open lists and tables on a stack.
-/

namespace Switchboard.Json

/-! ## Numbers -/

/-- The significand of a number is held in 64 bits. -/
def maxSignificand : Nat := 0xFFFFFFFFFFFFFFFF

/-- Gather the digits of the whole part. Digits that no longer fit count as powers of ten. -/
def gatherWhole (ds : List Char) : Nat × Nat :=
  let r := ds.foldl (fun (acc : Nat × Nat × Bool) d =>
    let n := acc.1 * 10 + digitValue d
    if acc.2.2 || maxSignificand < n then (acc.1, acc.2.1 + 1, true) else (n, acc.2.1, false))
    (0, 0, false)
  (r.1, r.2.1)

/-- Gather the digits of the fraction behind a significand, and count those that fit. -/
def gatherFraction (significand : Nat) : List Char → Nat × Nat
  | [] => (significand, 0)
  | d :: ds =>
    let n := significand * 10 + digitValue d
    if maxSignificand < n then (significand, 0)
    else
      let r := gatherFraction n ds
      (r.1, r.2 + 1)

def powerOfTen (e : Nat) : Float := Float.ofScientific 1 false e

/-- Divide by a power of ten, in steps that floating point numbers can express. -/
def scaleDown (x : Float) (e : Nat) : Float :=
  if h : 308 < e then
    if x == 0 then x else scaleDown (x / powerOfTen 308) (e - 308)
  else x / powerOfTen e
termination_by e
decreasing_by exact Nat.sub_lt (Nat.lt_trans (Nat.zero_lt_succ _) h) (Nat.zero_lt_succ _)

/-- The value of a number with a fraction or an exponent, or of one too large for an integer. It is
computed in floating point, and refused when it is infinite. -/
def scaled? (significand : Nat) (e : Int) : Option Float :=
  let x := (UInt64.ofNat significand).toFloat
  if e < 0 then some (scaleDown x (-e).toNat)
  else if 308 < e then if x == 0 then some x else none
  else
    let y := x * powerOfTen e.toNat
    if y.isInf then none else some y

/-- A number: an optional minus, a whole part without needless zeros, a fraction, an exponent. -/
def number? (cs : List Char) : Option Document := do
  let (negative, cs) := match cs with
    | '-' :: rest => (true, rest)
    | _ => (false, cs)
  let whole := cs.takeWhile isDigitChar
  let rest := cs.dropWhile isDigitChar
  guard (whole = ['0'] || (whole.head?.any (· ≠ '0')))
  let w := gatherWhole whole
  let sign (x : Float) : Document := .decimal (if negative then -x else x)
  match rest with
  | [] =>
    let n := ofDigits whole
    if !negative && n ≤ maxSignificand then return .integer n
    if negative && 0 < n && fitsSigned (-n) then return .integer (-n)
    (scaled? w.1 w.2).map sign
  | _ =>
    let (fraction, rest) ← match rest with
      | '.' :: rest =>
        let ds := rest.takeWhile isDigitChar
        if ds.isEmpty then none else some (ds, rest.dropWhile isDigitChar)
      | _ => some ([], rest)
    let f := gatherFraction w.1 fraction
    let e ← readExponent? rest
    let e : Int := e + w.2 - f.2
    (scaled? f.1 e).map sign

/-! ## Tokens -/

inductive Token where
  | openList
  | closeList
  | openTable
  | closeTable
  | comma
  | colon
  | text (s : String)
  | atom (d : Document)

def word? (cs : List Char) : Option Token :=
  if cs = ['n', 'u', 'l', 'l'] then some (.atom .null)
  else if cs = ['t', 'r', 'u', 'e'] then some (.atom (.boolean true))
  else if cs = ['f', 'a', 'l', 's', 'e'] then some (.atom (.boolean false))
  else (number? cs).map .atom

/-! ## The machine of open lists and tables -/

/-- A list or table that is not complete. The last item is first, fields are in order. -/
inductive Open where
  | list (items : List Document)
  | table (fields : List (String × Document)) (key : String)

inductive Expected where
  | value
  | valueOrClose
  | keyOrClose (fields : List (String × Document))
  | key (fields : List (String × Document))
  | colon (fields : List (String × Document)) (key : String)
  | commaOrClose
  | nothing (result : Document)

structure Machine where
  stack : List Open
  expected : Expected

namespace Machine

def start : Machine := ⟨[], .value⟩

def depthLimit : Nat := 128

/-- Take a complete value into the list or table that is open. -/
def complete (stack : List Open) (d : Document) : Machine :=
  match stack with
  | [] => ⟨[], .nothing d⟩
  | .list items :: rest => ⟨.list (d :: items) :: rest, .commaOrClose⟩
  | .table fields key :: rest => ⟨.table (Document.putField fields key d) key :: rest, .commaOrClose⟩

def begin? (stack : List Open) : Token → Option Machine
  | .openList => if stack.length + 1 < depthLimit then some ⟨.list [] :: stack, .valueOrClose⟩ else none
  | .openTable => if stack.length + 1 < depthLimit then some ⟨stack, .keyOrClose []⟩ else none
  | .text s => some (complete stack (.text s))
  | .atom d => some (complete stack d)
  | _ => none

def feed? (m : Machine) (t : Token) : Option Machine :=
  match m.expected, m.stack, t with
  | .value, stack, t => begin? stack t
  | .valueOrClose, .list items :: rest, .closeList => some (complete rest (.list items.reverse))
  | .valueOrClose, stack, t => begin? stack t
  | .keyOrClose fields, stack, .closeTable => some (complete stack (.table fields))
  | .keyOrClose fields, stack, .text key => some ⟨stack, .colon fields key⟩
  | .key fields, stack, .text key => some ⟨stack, .colon fields key⟩
  | .colon fields key, stack, .colon => some ⟨.table fields key :: stack, .value⟩
  | .commaOrClose, .list items :: rest, .comma => some ⟨.list items :: rest, .value⟩
  | .commaOrClose, .list items :: rest, .closeList => some (complete rest (.list items.reverse))
  | .commaOrClose, .table fields _ :: rest, .comma => some ⟨rest, .key fields⟩
  | .commaOrClose, .table fields _ :: rest, .closeTable => some (complete rest (.table fields))
  | _, _, _ => none

end Machine

/-! ## Reading characters -/

/-- Where the reader is. Gathered characters are kept in reverse. -/
inductive Place where
  | between
  | word (gathered : List Char)
  | quoted (gathered : List Char)
  | escape (gathered : List Char)
  /-- Hexadecimal digits of an escape, `count` of them read; `high` is a first surrogate. -/
  | hex (gathered : List Char) (high : Option Nat) (count : Nat) (value : Nat)
  /-- A first surrogate was read, and a second has to follow. -/
  | surrogate (gathered : List Char) (high : Nat) (backslash : Bool)

structure Reader where
  machine : Machine
  place : Place

namespace Reader

def isSpace (c : Char) : Bool := c = ' ' || c = '\t' || c = '\n' || c = '\r'

def punctuation? (c : Char) : Option Token :=
  match c with
  | '[' => some .openList
  | ']' => some .closeList
  | '{' => some .openTable
  | '}' => some .closeTable
  | ',' => some .comma
  | ':' => some .colon
  | _ => none

def startToken? (m : Machine) (c : Char) : Option Reader :=
  if isSpace c then some ⟨m, .between⟩
  else if c = '"' then some ⟨m, .quoted []⟩
  else match punctuation? c with
    | some t => (m.feed? t).map (⟨·, .between⟩)
    | none => some ⟨m, .word [c]⟩

def endsWord (c : Char) : Bool := isSpace c || c = '"' || (punctuation? c).isSome

/-- The character that a backslash and `c` stand for. -/
def escape? (c : Char) : Option Char := if c = '/' then some '/' else shortEscape? c

/-- Four hexadecimal digits have been read. -/
def endHex? (m : Machine) (gathered : List Char) (high : Option Nat) (n : Nat) : Option Reader :=
  match high with
  | some h =>
    if 0xDC00 ≤ n && n < 0xE000 then
      some ⟨m, .quoted (.ofNat (0x10000 + (h - 0xD800) * 0x400 + (n - 0xDC00)) :: gathered)⟩
    else none
  | none =>
    if 0xD800 ≤ n && n < 0xDC00 then some ⟨m, .surrogate gathered n false⟩
    else if 0xDC00 ≤ n && n < 0xE000 then none
    else some ⟨m, .quoted (.ofNat n :: gathered)⟩

def step? (r : Reader) (c : Char) : Option Reader :=
  let m := r.machine
  match r.place with
  | .between => startToken? m c
  | .word cs =>
    if endsWord c then do
      let t ← word? cs.reverse
      startToken? (← m.feed? t) c
    else some ⟨m, .word (c :: cs)⟩
  | .quoted cs =>
    if c = '"' then (m.feed? (.text (.ofList cs.reverse))).map (⟨·, .between⟩)
    else if c = '\\' then some ⟨m, .escape cs⟩
    else if c.toNat < 0x20 then none
    else some ⟨m, .quoted (c :: cs)⟩
  | .escape cs =>
    if c = 'u' then some ⟨m, .hex cs none 0 0⟩
    else (escape? c).map fun e => ⟨m, .quoted (e :: cs)⟩
  | .hex cs high count value => do
    let value := value * 16 + (← hexDigit? c)
    if count = 3 then endHex? m cs high value else some ⟨m, .hex cs high (count + 1) value⟩
  | .surrogate cs high false => if c = '\\' then some ⟨m, .surrogate cs high true⟩ else none
  | .surrogate cs high true => if c = 'u' then some ⟨m, .hex cs (some high) 0 0⟩ else none

def finish? (r : Reader) : Option Document := do
  let m ← match r.place with
    | .between => some r.machine
    | .word cs => (word? cs.reverse).bind r.machine.feed?
    | _ => none
  match m.expected with
  | .nothing d => some d
  | _ => none

end Reader

def read? (cs : List Char) : Option Document :=
  (cs.foldlM Reader.step? ⟨.start, .between⟩).bind Reader.finish?

end Switchboard.Json
