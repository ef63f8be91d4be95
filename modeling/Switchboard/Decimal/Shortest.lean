/-!
# Shortest decimals

The decimal with the fewest digits that reads back as a given binary floating point number, found by
exact arithmetic: on the grids of one digit, two digits and so on, the two neighbours of the number
are tested, and the first grid with a hit wins.
-/

namespace Switchboard

/-- `digits * 10 ^ exponent`. -/
structure Decimal where
  digits : Nat
  exponent : Int
deriving DecidableEq, Repr

/-- Which of two neighbouring decimals stands for a number halfway between them. -/
inductive Tie where
  | up
  | even
deriving DecidableEq, Repr

def Tie.choose (tie : Tie) (low high : Decimal) : Decimal :=
  match tie with
  | up => high
  | even => if low.digits % 2 = 0 then low else high

/-- A finite number `significand * 2 ^ exponent`, without its sign. -/
structure Binary where
  significand : Nat
  exponent : Int
  /-- The gap to the number below is half the gap to the number above. -/
  narrowBelow : Bool
deriving DecidableEq, Repr

namespace Binary

/-- The number with these bits, which stand for neither infinity nor NaN. -/
def ofBits (b : UInt64) : Binary :=
  let e := (b >>> 52 &&& 0x7FF).toNat
  let f := (b &&& 0xFFFFFFFFFFFFF).toNat
  if e = 0 then ⟨f, -1074, false⟩ else ⟨0x10000000000000 + f, e - 1075, f = 0 && 1 < e⟩

/-- A power of `base`, or one when the exponent is negative. -/
def power (base : Nat) (e : Int) : Nat := Nat.pow base e.toNat

def compareScaled (a : Nat) (i : Int) (n : Nat) (j : Int) : Ordering :=
  compare (a * power 10 i * power 2 (-j)) (n * power 2 j * power 10 (-i))

/-- `d` is among the reals that round to `x`: to the nearest, a tie to the even significand. -/
def readsBack (x : Binary) (d : Decimal) : Bool :=
  let low := if x.narrowBelow then 4 * x.significand - 1 else 4 * x.significand - 2
  let high := 4 * x.significand + 2
  let closed := x.significand % 2 = 0
  let below := compareScaled d.digits d.exponent low (x.exponent - 2)
  let above := compareScaled d.digits d.exponent high (x.exponent - 2)
  (below = .gt || (closed && below = .eq)) && (above = .lt || (closed && above = .eq))

/-- The least `k` with `x < 10 ^ k`, by steps from an estimate. -/
def scale (x : Binary) : Int :=
  let estimate := ((x.significand.log2 : Int) + x.exponent) * 30103 / 100000 - 1
  let atLeast (k : Int) : Bool := compareScaled 1 k x.significand x.exponent ≠ .gt
  if !atLeast estimate then estimate
  else if !atLeast (estimate + 1) then estimate + 1
  else if !atLeast (estimate + 2) then estimate + 2
  else estimate + 3

/-- The multiple of `10 ^ g` at or below `x`, in units of `10 ^ g`. -/
def floorOn (x : Binary) (g : Int) : Nat :=
  (x.significand * power 2 x.exponent * power 10 (-g)) / (power 2 (-x.exponent) * power 10 g)

/-- Of the two neighbours of `x` on the grid `10 ^ g`, the one that reads back as `x`; of two the
nearer, of two equally near the one that `tie` says. -/
def onGrid? (tie : Tie) (x : Binary) (g : Int) : Option Decimal :=
  let low : Decimal := ⟨x.floorOn g, g⟩
  let high : Decimal := ⟨x.floorOn g + 1, g⟩
  match x.readsBack low, x.readsBack high with
  | true, true =>
    match compareScaled (low.digits + high.digits) g (2 * x.significand) x.exponent with
    | .gt => some low
    | .lt => some high
    | .eq => some (tie.choose low high)
  | true, false => some low
  | false, true => some high
  | false, false => none

/-- The exact value, for a number that no shorter decimal stands for. -/
def exact (x : Binary) : Decimal :=
  if 0 ≤ x.exponent then ⟨x.significand * power 2 x.exponent, 0⟩
  else ⟨x.significand * power 5 (-x.exponent), x.exponent⟩

def shortest (tie : Tie) (x : Binary) : Decimal :=
  if x.significand = 0 then ⟨0, 0⟩
  else
    let k := x.scale
    ((List.range 17).findSome? fun (n : Nat) => x.onGrid? tie (k - (n + 1))).getD x.exact

end Binary

namespace Decimal

/-- Move trailing zeros of the digits into the exponent, at most `n` of them. -/
def stripZeros : Nat → Decimal → Decimal
  | 0, d => d
  | n + 1, d =>
    if d.digits ≠ 0 ∧ d.digits % 10 = 0 then stripZeros n ⟨d.digits / 10, d.exponent + 1⟩ else d

def normalize (d : Decimal) : Decimal := stripZeros (Nat.toDigits 10 d.digits).length d

/-- Positional notation, without an exponent and without a point when there is no fraction. -/
def positional (d : Decimal) : String :=
  let digits := Nat.toDigits 10 d.digits
  if 0 ≤ d.exponent then .ofList (digits ++ List.replicate d.exponent.toNat '0')
  else
    let places := (-d.exponent).toNat
    let padded := List.replicate (places + 1 - digits.length) '0' ++ digits
    .ofList (padded.take (padded.length - places) ++ '.' :: padded.drop (padded.length - places))

/-- Scientific notation, with a point only when there are several digits. The exponent has a sign. -/
def scientific (d : Decimal) : String :=
  let digits := Nat.toDigits 10 d.digits
  let exponent := d.exponent + (digits.length - 1)
  let fraction := match digits.drop 1 with
    | [] => []
    | ds => '.' :: ds
  let mark := if exponent < 0 then "e" else "e+"
  .ofList (digits.take 1 ++ fraction) ++ mark ++ toString exponent

end Decimal

/-! ## Texts of floating point numbers -/

/-- The sign of a number that is not NaN, as text. -/
def signText (x : Float) : String := if x.toBits >>> 63 = 1 then "-" else ""

def shortestDecimal (tie : Tie) (x : Float) : Decimal :=
  ((Binary.ofBits x.toBits).shortest tie).normalize

/-- A number in positional notation. A tie goes up. -/
def positionalText (x : Float) : String :=
  if x.isNaN then "NaN"
  else if x.isInf then signText x ++ "inf"
  else signText x ++ (shortestDecimal .up x).positional

/-- A finite number with a point or an exponent: positional from `0.00001` to below `10 ^ 16`,
scientific elsewhere. A tie goes to the even digit. -/
def pointedText (x : Float) : String :=
  let d := shortestDecimal .even x
  let leading := d.exponent + ((Nat.toDigits 10 d.digits).length : Int)
  let text :=
    if d.digits = 0 then "0.0"
    else if -5 < leading ∧ leading ≤ 16 then
      if 0 ≤ d.exponent then d.positional ++ ".0" else d.positional
    else d.scientific
  signText x ++ text

end Switchboard
