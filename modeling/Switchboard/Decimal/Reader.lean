/-!
# Reading decimals

Digits, whole numbers and floating point numbers from text.
-/

namespace Switchboard

def digitValue (c : Char) : Nat := c.toNat - '0'.toNat

def isDigitChar (c : Char) : Bool := '0' ≤ c && c ≤ '9'

/-- The value of a hexadecimal digit, in either case. -/
def hexDigit? (c : Char) : Option Nat :=
  if isDigitChar c then some (digitValue c)
  else if 'a' ≤ c && c ≤ 'f' then some (c.toNat - 'a'.toNat + 10)
  else if 'A' ≤ c && c ≤ 'F' then some (c.toNat - 'A'.toNat + 10)
  else none

def ofDigits (cs : List Char) : Nat := cs.foldl (fun n c => n * 10 + digitValue c) 0

/-- The floating point number nearest to `digits * 10 ^ exponent`. Exponents far outside the range
of floating point numbers are decided without computing the power. -/
def nearestFloat (digits : Nat) (exponent : Int) : Float :=
  let leading := exponent + ((Nat.toDigits 10 digits).length : Int)
  if digits = 0 then 0
  else if 400 < leading then 1 / 0
  else if leading < -400 then 0
  else if 0 ≤ exponent then Float.ofScientific digits false exponent.toNat
  else Float.ofScientific digits true (-exponent).toNat

/-- An optional sign: whether it is a minus, and what follows. -/
def takeSign : List Char → Bool × List Char
  | '-' :: cs => (true, cs)
  | '+' :: cs => (false, cs)
  | cs => (false, cs)

/-- A whole number of decimal digits with an optional sign. -/
def readInteger? (cs : List Char) : Option Int :=
  let r := takeSign cs
  if r.2.isEmpty || !r.2.all isDigitChar then none
  else some (if r.1 then -(ofDigits r.2 : Int) else ofDigits r.2)

/-- The number fits in 64 bits of which one is the sign. -/
def fitsSigned (n : Int) : Bool := -0x8000000000000000 ≤ n && n < 0x8000000000000000

/-- A whole number without a minus sign. -/
def readNatural? (cs : List Char) : Option Nat :=
  match cs with
  | '-' :: _ => none
  | _ => (readInteger? cs).map Int.toNat

/-- An exponent: a whole number after `e`, or nothing. -/
def readExponent? : List Char → Option Int
  | [] => some 0
  | c :: cs => if c = 'e' || c = 'E' then readInteger? cs else none

/-- A floating point number without sign: digits with a point before, between or after them, and an
exponent; or a name of infinity or NaN. -/
def readUnsignedFloat? (cs : List Char) : Option Float :=
  let word := String.ofList (cs.map Char.toLower)
  if word = "inf" || word = "infinity" then some (1 / 0)
  else if word = "nan" then some (0 / 0)
  else
    let whole := cs.takeWhile isDigitChar
    let rest := cs.dropWhile isDigitChar
    let r := match rest with
      | '.' :: rest => (rest.takeWhile isDigitChar, rest.dropWhile isDigitChar)
      | _ => ([], rest)
    if whole.isEmpty && r.1.isEmpty then none
    else (readExponent? r.2).map fun e => nearestFloat (ofDigits (whole ++ r.1)) (e - r.1.length)

def readFloat? (cs : List Char) : Option Float :=
  let r := takeSign cs
  (readUnsignedFloat? r.2).map fun x => if r.1 then -x else x

end Switchboard
