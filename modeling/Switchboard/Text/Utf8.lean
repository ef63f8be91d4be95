/-!
# UTF-8

Encoding of characters as octets, and a decoder that says where and why a string of octets is not
UTF-8. The decoder takes one character at a time (`takeChar`), so the position it reports is the
length of the longest valid beginning.
-/

namespace Switchboard

abbrev Bytes := List UInt8

namespace Utf8

/-! ## Encoding -/

def encodeChar (c : Char) : Bytes :=
  let n := c.toNat
  if n < 0x80 then [.ofNat n]
  else if n < 0x800 then [.ofNat (0xC0 + n / 0x40), .ofNat (0x80 + n % 0x40)]
  else if n < 0x10000 then
    [.ofNat (0xE0 + n / 0x1000), .ofNat (0x80 + n / 0x40 % 0x40), .ofNat (0x80 + n % 0x40)]
  else
    [.ofNat (0xF0 + n / 0x40000), .ofNat (0x80 + n / 0x1000 % 0x40),
      .ofNat (0x80 + n / 0x40 % 0x40), .ofNat (0x80 + n % 0x40)]

def encode (cs : List Char) : Bytes := cs.flatMap encodeChar

/-! ## Decoding -/

/-- Why octets stop being UTF-8: the first `invalid n` octets can begin no character, or the input
ends inside one. -/
inductive Flaw where
  | invalid (length : Nat)
  | incomplete
deriving DecidableEq, Repr

structure Malformed where
  index : Nat
  flaw : Flaw
deriving DecidableEq, Repr

def Malformed.message (m : Malformed) : String :=
  match m.flaw with
  | .invalid n => s!"invalid utf-8 sequence of {n} bytes from index {m.index}"
  | .incomplete => s!"incomplete utf-8 byte sequence from index {m.index}"

/-- Octets that may stand second in a character of three octets that starts with `b`. The bounds
leave out overlong forms and surrogates. -/
def secondOfThree (b c : Nat) : Bool :=
  if b = 0xE0 then 0xA0 ≤ c && c < 0xC0
  else if b = 0xED then 0x80 ≤ c && c < 0xA0
  else 0x80 ≤ c && c < 0xC0

/-- Octets that may stand second in a character of four octets that starts with `b`. The bounds
leave out overlong forms and numbers above the last code point. -/
def secondOfFour (b c : Nat) : Bool :=
  if b = 0xF0 then 0x90 ≤ c && c < 0xC0
  else if b = 0xF4 then 0x80 ≤ c && c < 0x90
  else 0x80 ≤ c && c < 0xC0

def isContinuation (c : Nat) : Bool := 0x80 ≤ c && c < 0xC0

/-- The character that starts with octet `b`, and how many of the octets after `b` belong to it. -/
def takeChar (b : Nat) (rest : Bytes) : Except Flaw (Char × Nat) :=
  if b < 0x80 then .ok (.ofNat b, 0)
  else if b < 0xC2 then .error (.invalid 1)
  else if b < 0xE0 then
    match rest with
    | [] => .error .incomplete
    | c :: _ =>
      if isContinuation c.toNat then .ok (.ofNat ((b - 0xC0) * 0x40 + (c.toNat - 0x80)), 1)
      else .error (.invalid 1)
  else if b < 0xF0 then
    match rest with
    | [] => .error .incomplete
    | [c] => if secondOfThree b c.toNat then .error .incomplete else .error (.invalid 1)
    | c :: d :: _ =>
      if !secondOfThree b c.toNat then .error (.invalid 1)
      else if !isContinuation d.toNat then .error (.invalid 2)
      else
        .ok (.ofNat ((b - 0xE0) * 0x1000 + (c.toNat - 0x80) * 0x40 + (d.toNat - 0x80)), 2)
  else if b < 0xF5 then
    match rest with
    | [] => .error .incomplete
    | [c] => if secondOfFour b c.toNat then .error .incomplete else .error (.invalid 1)
    | [c, d] =>
      if !secondOfFour b c.toNat then .error (.invalid 1)
      else if isContinuation d.toNat then .error .incomplete
      else .error (.invalid 2)
    | c :: d :: e :: _ =>
      if !secondOfFour b c.toNat then .error (.invalid 1)
      else if !isContinuation d.toNat then .error (.invalid 2)
      else if !isContinuation e.toNat then .error (.invalid 3)
      else
        .ok (.ofNat ((b - 0xF0) * 0x40000 + (c.toNat - 0x80) * 0x1000 + (d.toNat - 0x80) * 0x40
          + (e.toNat - 0x80)), 3)
  else .error (.invalid 1)

/-- Decode octets of which the first stands at `index`. The first `taken` of them belong to a
character that is decoded already. -/
def decodeFrom : (index taken : Nat) → Bytes → Except Malformed (List Char)
  | _, _, [] => .ok []
  | index, taken + 1, _ :: rest => decodeFrom (index + 1) taken rest
  | index, 0, b :: rest =>
    match takeChar b.toNat rest with
    | .error flaw => .error ⟨index, flaw⟩
    | .ok (c, n) =>
      match decodeFrom (index + 1) n rest with
      | .error m => .error m
      | .ok cs => .ok (c :: cs)

def decode (bs : Bytes) : Except Malformed (List Char) := decodeFrom 0 0 bs

/-- Decode, with U+FFFD in place of each longest run of octets that begins no character. -/
def decodeLossyFrom : (taken : Nat) → Bytes → List Char
  | _, [] => []
  | taken + 1, _ :: rest => decodeLossyFrom taken rest
  | 0, b :: rest =>
    match takeChar b.toNat rest with
    | .error .incomplete => ['\uFFFD']
    | .error (.invalid n) => '\uFFFD' :: decodeLossyFrom (n - 1) rest
    | .ok (c, n) => c :: decodeLossyFrom n rest

def decodeLossy (bs : Bytes) : List Char := decodeLossyFrom 0 bs

end Utf8

def toBytes (s : String) : Bytes := Utf8.encode s.toList

end Switchboard
