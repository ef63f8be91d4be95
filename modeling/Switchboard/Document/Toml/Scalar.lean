import Switchboard.Decimal.Reader
import Switchboard.Document.Basic

/-!
# TOML scalars

Unquoted values: booleans, integers, floating point numbers, dates and times. A date or time becomes
its text in a normal form.
-/

namespace Switchboard.Toml

/-! ## Numbers -/

/-- Digits that may have single underscores between them, without the underscores. -/
def ungroup? (isDigit : Char → Bool) : List Char → Option (List Char)
  | [] => none
  | [c] => if isDigit c then some [c] else none
  | c :: '_' :: rest => if isDigit c then (ungroup? isDigit rest).map (c :: ·) else none
  | c :: rest => if isDigit c then (ungroup? isDigit rest).map (c :: ·) else none

def radixDigit? (radix : Nat) (c : Char) : Option Nat := (hexDigit? c).filter (· < radix)

def maxInteger : Nat := 0x7FFFFFFFFFFFFFFF

def radixInteger? (radix : Nat) (cs : List Char) : Option Document := do
  let digits ← ungroup? (fun c => (radixDigit? radix c).isSome) cs
  let n := digits.foldl (fun n c => n * radix + (radixDigit? radix c).getD 0) 0
  if n ≤ maxInteger then some (.integer n) else none

/-- Digits without a needless zero in front. -/
def plainDigits? (cs : List Char) : Option (List Char) := do
  let digits ← ungroup? isDigitChar cs
  if digits.length = 1 || digits.head? ≠ some '0' then some digits else none

def integer? (cs : List Char) : Option Document := do
  let r := takeSign cs
  let digits ← plainDigits? r.2
  let n := ofDigits digits
  if r.1 then
    if n ≤ maxInteger + 1 then some (.integer (-n)) else none
  else if n ≤ maxInteger then some (.integer n) else none

/-- An exponent mark and a whole number, whose digits may start with zeros. -/
def exponent? : List Char → Option Int
  | [] => some 0
  | c :: cs => do
    guard (c = 'e' || c = 'E')
    let r := takeSign cs
    let digits ← ungroup? isDigitChar r.2
    some (if r.1 then -(ofDigits digits : Int) else ofDigits digits)

/-- A floating point number: a whole part, then a fraction, an exponent or both. -/
def float? (cs : List Char) : Option Document := do
  let r := takeSign cs
  let sign (x : Float) : Document := .decimal (if r.1 then -x else x)
  if r.2 = ['i', 'n', 'f'] then return sign (1 / 0)
  if r.2 = ['n', 'a', 'n'] then return sign (0 / 0)
  let isGrouped (c : Char) : Bool := isDigitChar c || c = '_'
  let whole ← plainDigits? (r.2.takeWhile isGrouped)
  let (fraction, rest) ← match r.2.dropWhile isGrouped with
    | '.' :: rest => do
      let digits ← ungroup? isDigitChar (rest.takeWhile isGrouped)
      some (digits, rest.dropWhile isGrouped)
    | [] => none
    | rest => some ([], rest)
  let e ← exponent? rest
  let x := nearestFloat (ofDigits (whole ++ fraction)) (e - fraction.length)
  if x.isInf then none else some (sign x)

/-! ## Dates and times -/

def takeDigits? (n : Nat) (cs : List Char) : Option (Nat × List Char) :=
  let ds := cs.take n
  if ds.length = n && ds.all isDigitChar then some (ofDigits ds, cs.drop n) else none

def takeChar? (c : Char) : List Char → Option (List Char)
  | d :: cs => if d = c then some cs else none
  | [] => none

def isLeapYear (y : Nat) : Bool := y % 4 = 0 && (y % 100 ≠ 0 || y % 400 = 0)

def daysInMonth (y m : Nat) : Nat :=
  if m = 2 then if isLeapYear y then 29 else 28
  else if m = 4 || m = 6 || m = 9 || m = 11 then 30
  else 31

def padded (width n : Nat) : String :=
  let ds := Nat.toDigits 10 n
  .ofList (List.replicate (width - ds.length) '0' ++ ds)

/-- A date at the front of a text, in its normal form. -/
def takeDate? (cs : List Char) : Option (String × List Char) := do
  let (y, cs) ← takeDigits? 4 cs
  let (m, cs) ← takeDigits? 2 (← takeChar? '-' cs)
  let (d, cs) ← takeDigits? 2 (← takeChar? '-' cs)
  guard (1 ≤ m && m ≤ 12 && 1 ≤ d && d ≤ daysInMonth y m)
  some (padded 4 y ++ "-" ++ padded 2 m ++ "-" ++ padded 2 d, cs)

/-- A fraction of a second to nine places, without the zeros at its end but with one digit at least. -/
def fractionText (digits : List Char) : String :=
  let kept := ((digits.take 9).reverse.dropWhile (· = '0')).reverse
  "." ++ .ofList (if kept.isEmpty then ['0'] else kept)

/-- The seconds of a time in their normal form. A time may go without them. -/
def takeSeconds? : List Char → Option (String × List Char)
  | ':' :: cs => do
    let (s, cs) ← takeDigits? 2 cs
    guard (s ≤ 60)
    let (fraction, cs) ← match cs with
      | '.' :: rest =>
        let ds := rest.takeWhile isDigitChar
        if ds.isEmpty then none else some (fractionText ds, rest.dropWhile isDigitChar)
      | _ => some ("", cs)
    some (":" ++ padded 2 s ++ fraction, cs)
  | cs => some ("", cs)

/-- A time at the front of a text, in its normal form. -/
def takeTime? (cs : List Char) : Option (String × List Char) := do
  let (h, cs) ← takeDigits? 2 cs
  let (m, cs) ← takeDigits? 2 (← takeChar? ':' cs)
  guard (h ≤ 23 && m ≤ 59)
  let (seconds, cs) ← takeSeconds? cs
  some (padded 2 h ++ ":" ++ padded 2 m ++ seconds, cs)

def offset? : List Char → Option String
  | [] => some ""
  | [c] => if c = 'Z' || c = 'z' then some "Z" else none
  | c :: cs => do
    guard (c = '+' || c = '-')
    let (h, cs) ← takeDigits? 2 cs
    let (m, cs) ← takeDigits? 2 (← takeChar? ':' cs)
    guard (cs.isEmpty && h ≤ 23 && m ≤ 59)
    let sign := if c = '-' && (h ≠ 0 || m ≠ 0) then "-" else "+"
    some (sign ++ padded 2 h ++ ":" ++ padded 2 m)

def dateTime? (cs : List Char) : Option Document :=
  match takeDate? cs with
  | some (date, []) => some (.text date)
  | some (date, c :: rest) => do
    guard (c = 'T' || c = 't' || c = ' ')
    let (time, rest) ← takeTime? rest
    let offset ← offset? rest
    some (.text (date ++ "T" ++ time ++ offset))
  | none =>
    match takeTime? cs with
    | some (time, []) => some (.text time)
    | _ => none

def scalar? (cs : List Char) : Option Document :=
  match cs with
  | ['t', 'r', 'u', 'e'] => some (.boolean true)
  | ['f', 'a', 'l', 's', 'e'] => some (.boolean false)
  | '0' :: 'x' :: digits => radixInteger? 16 digits
  | '0' :: 'o' :: digits => radixInteger? 8 digits
  | '0' :: 'b' :: digits => radixInteger? 2 digits
  | _ => integer? cs <|> float? cs <|> dateTime? cs

end Switchboard.Toml
