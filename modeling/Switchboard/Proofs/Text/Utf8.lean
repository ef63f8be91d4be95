import Switchboard.Text.Utf8

/-!
# UTF-8 reads back

`decode` undoes `encode`, and accepts nothing else: octets decode to characters exactly when they are
the encoding of these characters. So an encoding has one reading, and what follows the encoding of a
text in valid octets is itself valid.
-/

namespace Switchboard

namespace Utf8

/-! ## The four forms of a character -/

section
variable {b : Nat} {c d e : UInt8} {rest : Bytes}

theorem takeChar_one (hb : b < 0x80) : takeChar b rest = .ok (.ofNat b, 0) := by
  unfold takeChar
  rw [if_pos hb]

theorem takeChar_two (hb : 0xC2 ≤ b ∧ b < 0xE0) (hc : isContinuation c.toNat = true) :
    takeChar b (c :: rest) = .ok (.ofNat ((b - 0xC0) * 0x40 + (c.toNat - 0x80)), 1) := by
  unfold takeChar
  rw [if_neg (by omega), if_neg (by omega), if_pos (by omega)]
  simp only [hc, ite_true]

theorem takeChar_three (hb : 0xE0 ≤ b ∧ b < 0xF0) (hc : secondOfThree b c.toNat = true)
    (hd : isContinuation d.toNat = true) : takeChar b (c :: d :: rest) =
      .ok (.ofNat ((b - 0xE0) * 0x1000 + (c.toNat - 0x80) * 0x40 + (d.toNat - 0x80)), 2) := by
  unfold takeChar
  rw [if_neg (by omega), if_neg (by omega), if_neg (by omega), if_pos (by omega)]
  simp [hc, hd]

theorem takeChar_four (hb : 0xF0 ≤ b ∧ b < 0xF5) (hc : secondOfFour b c.toNat = true)
    (hd : isContinuation d.toNat = true) (he : isContinuation e.toNat = true) :
    takeChar b (c :: d :: e :: rest) = .ok (.ofNat ((b - 0xF0) * 0x40000 + (c.toNat - 0x80) * 0x1000 +
      (d.toNat - 0x80) * 0x40 + (e.toNat - 0x80)), 3) := by
  unfold takeChar
  rw [if_neg (by omega), if_neg (by omega), if_neg (by omega), if_neg (by omega), if_pos (by omega)]
  simp [hc, hd, he]

/-- There are no other forms. -/
theorem takeChar_cases {x : Char} {n : Nat} (h : takeChar b rest = .ok (x, n)) :
    (b < 0x80 ∧ x = .ofNat b ∧ n = 0) ∨
    (∃ c t, rest = c :: t ∧ (0xC2 ≤ b ∧ b < 0xE0) ∧ isContinuation c.toNat = true ∧
      x = .ofNat ((b - 0xC0) * 0x40 + (c.toNat - 0x80)) ∧ n = 1) ∨
    (∃ c d t, rest = c :: d :: t ∧ (0xE0 ≤ b ∧ b < 0xF0) ∧ secondOfThree b c.toNat = true ∧
      isContinuation d.toNat = true ∧
      x = .ofNat ((b - 0xE0) * 0x1000 + (c.toNat - 0x80) * 0x40 + (d.toNat - 0x80)) ∧ n = 2) ∨
    (∃ c d e t, rest = c :: d :: e :: t ∧ (0xF0 ≤ b ∧ b < 0xF5) ∧ secondOfFour b c.toNat = true ∧
      isContinuation d.toNat = true ∧ isContinuation e.toNat = true ∧
      x = .ofNat ((b - 0xF0) * 0x40000 + (c.toNat - 0x80) * 0x1000 + (d.toNat - 0x80) * 0x40 +
        (e.toNat - 0x80)) ∧ n = 3) := by
  by_cases h1 : b < 0x80
  · rw [takeChar_one h1] at h
    simp only [Except.ok.injEq, Prod.mk.injEq] at h
    exact .inl ⟨h1, h.1.symm, h.2.symm⟩
  unfold takeChar at h
  rw [if_neg h1] at h
  by_cases h2 : b < 0xC2
  · rw [if_pos h2] at h; cases h
  rw [if_neg h2] at h
  by_cases h3 : b < 0xE0
  · rw [if_pos h3] at h
    match rest, h with
    | c :: t, h =>
      dsimp only at h
      split at h
      · next hc =>
        simp only [Except.ok.injEq, Prod.mk.injEq] at h
        exact .inr (.inl ⟨c, t, rfl, by omega, hc, h.1.symm, h.2.symm⟩)
      · cases h
  rw [if_neg h3] at h
  by_cases h4 : b < 0xF0
  · rw [if_pos h4] at h
    match rest, h with
    | [_], h => dsimp only at h; split at h <;> cases h
    | c :: d :: t, h =>
      cases hc : secondOfThree b c.toNat <;> cases hd : isContinuation d.toNat <;> simp [hc, hd] at h
      exact .inr (.inr (.inl ⟨c, d, t, rfl, by omega, hc, hd, h.1.symm, h.2.symm⟩))
  rw [if_neg h4] at h
  by_cases h5 : b < 0xF5
  · rw [if_pos h5] at h
    match rest, h with
    | [_], h => dsimp only at h; split at h <;> cases h
    | [c, d], h => cases hc : secondOfFour b c.toNat <;> cases hd : isContinuation d.toNat <;> simp [hc, hd] at h
    | c :: d :: e :: t, h =>
      cases hc : secondOfFour b c.toNat <;> cases hd : isContinuation d.toNat <;>
        cases he : isContinuation e.toNat <;> simp [hc, hd, he] at h
      exact .inr (.inr (.inr ⟨c, d, e, t, rfl, by omega, hc, hd, he, h.1.symm, h.2.symm⟩))
  · rw [if_neg h5] at h; cases h

end

/-! ## Single characters -/

theorem isContinuation_iff {n : Nat} : isContinuation n = true ↔ 0x80 ≤ n ∧ n < 0xC0 := by
  simp [isContinuation]

theorem secondOfThree_iff {b n : Nat} : secondOfThree b n = true ↔
    0x80 ≤ n ∧ n < 0xC0 ∧ (b = 0xE0 → 0xA0 ≤ n) ∧ (b = 0xED → n < 0xA0) := by
  unfold secondOfThree
  split
  · simp; omega
  split
  · simp; omega
  · simp; omega

theorem secondOfFour_iff {b n : Nat} : secondOfFour b n = true ↔
    0x80 ≤ n ∧ n < 0xC0 ∧ (b = 0xF0 → 0x90 ≤ n) ∧ (b = 0xF4 → n < 0x90) := by
  unfold secondOfFour
  split
  · simp; omega
  split
  · simp; omega
  · simp; omega

theorem toNat_octet {n : Nat} (h : n < 0x100) : (UInt8.ofNat n).toNat = n := by
  rw [UInt8.toNat_ofNat']; omega

theorem toNat_ofNat {n : Nat} (h : n < 0xD800 ∨ (0xDFFF < n ∧ n < 0x110000)) : (Char.ofNat n).toNat = n := by
  have hv : n.isValidChar := h
  rw [Char.ofNat, dif_pos hv]
  rfl

/-- The decoder takes back the character that was encoded, whatever follows. -/
theorem takeChar_encodeChar (c : Char) (rest : Bytes) : ∃ b tail, encodeChar c = b :: tail ∧
    takeChar b.toNat (tail ++ rest) = .ok (c, tail.length) := by
  have hv : c.toNat < 0xD800 ∨ (0xDFFF < c.toNat ∧ c.toNat < 0x110000) := c.valid
  have hc : c = Char.ofNat c.toNat := (Char.ofNat_toNat c).symm
  unfold encodeChar
  dsimp only
  generalize c.toNat = n at hv hc
  subst hc
  by_cases h1 : n < 0x80
  · rw [if_pos h1]
    refine ⟨_, _, rfl, ?_⟩
    rw [toNat_octet (by omega), takeChar_one h1]; rfl
  rw [if_neg h1]
  by_cases h2 : n < 0x800
  · rw [if_pos h2]
    refine ⟨_, _, rfl, (takeChar_two ?_ ?_).trans ?_⟩
    · rw [toNat_octet (by omega)]; omega
    · rw [toNat_octet (by omega), isContinuation_iff]; omega
    · rw [toNat_octet (by omega), toNat_octet (by omega),
        show (0xC0 + n / 0x40 - 0xC0) * 0x40 + (0x80 + n % 0x40 - 0x80) = n by omega]
      rfl
  rw [if_neg h2]
  by_cases h3 : n < 0x10000
  · rw [if_pos h3]
    refine ⟨_, _, rfl, (takeChar_three ?_ ?_ ?_).trans ?_⟩
    · rw [toNat_octet (by omega)]; omega
    · rw [toNat_octet (by omega), toNat_octet (by omega), secondOfThree_iff]; omega
    · rw [toNat_octet (by omega), isContinuation_iff]; omega
    · rw [toNat_octet (by omega), toNat_octet (by omega), toNat_octet (by omega),
        show (0xE0 + n / 0x1000 - 0xE0) * 0x1000 + (0x80 + n / 0x40 % 0x40 - 0x80) * 0x40 +
          (0x80 + n % 0x40 - 0x80) = n by omega]
      rfl
  rw [if_neg h3]
  refine ⟨_, _, rfl, (takeChar_four ?_ ?_ ?_ ?_).trans ?_⟩
  · rw [toNat_octet (by omega)]; omega
  · rw [toNat_octet (by omega), toNat_octet (by omega), secondOfFour_iff]; omega
  · rw [toNat_octet (by omega), isContinuation_iff]; omega
  · rw [toNat_octet (by omega), isContinuation_iff]; omega
  · rw [toNat_octet (by omega), toNat_octet (by omega), toNat_octet (by omega), toNat_octet (by omega),
      show (0xF0 + n / 0x40000 - 0xF0) * 0x40000 + (0x80 + n / 0x1000 % 0x40 - 0x80) * 0x1000 +
        (0x80 + n / 0x40 % 0x40 - 0x80) * 0x40 + (0x80 + n % 0x40 - 0x80) = n by omega]
    rfl

theorem octet_eq {n : Nat} {b : UInt8} (h : n = b.toNat) : UInt8.ofNat n = b := by
  rw [h]; exact UInt8.ofNat_toNat

/-- Whatever the decoder takes is the encoding of the character it takes it for. -/
theorem encodeChar_of_takeChar {b : UInt8} {rest : Bytes} {c : Char} {n : Nat}
    (h : takeChar b.toNat rest = .ok (c, n)) : ∃ tail t, rest = tail ++ t ∧ tail.length = n ∧
      encodeChar c = b :: tail := by
  obtain ⟨hb, hc, rfl⟩ | ⟨c1, t, rfl, hb, h1, hc, rfl⟩ | ⟨c1, c2, t, rfl, hb, h1, h2, hc, rfl⟩ |
    ⟨c1, c2, c3, t, rfl, hb, h1, h2, h3, hc, rfl⟩ := takeChar_cases h
  · refine ⟨[], rest, rfl, rfl, ?_⟩
    unfold encodeChar
    rw [hc, toNat_ofNat (by omega), if_pos hb, UInt8.ofNat_toNat]
  · rw [isContinuation_iff] at h1
    refine ⟨[c1], t, rfl, rfl, ?_⟩
    unfold encodeChar
    rw [hc, toNat_ofNat (by omega), if_neg (by omega), if_pos (by omega), octet_eq (b := b) (by omega),
      octet_eq (b := c1) (by omega)]
  · rw [secondOfThree_iff] at h1
    rw [isContinuation_iff] at h2
    refine ⟨[c1, c2], t, rfl, rfl, ?_⟩
    unfold encodeChar
    rw [hc, toNat_ofNat (by omega), if_neg (by omega), if_neg (by omega), if_pos (by omega),
      octet_eq (b := b) (by omega), octet_eq (b := c1) (by omega), octet_eq (b := c2) (by omega)]
  · rw [secondOfFour_iff] at h1
    rw [isContinuation_iff] at h2 h3
    refine ⟨[c1, c2, c3], t, rfl, rfl, ?_⟩
    unfold encodeChar
    rw [hc, toNat_ofNat (by omega), if_neg (by omega), if_neg (by omega), if_neg (by omega),
      octet_eq (b := b) (by omega), octet_eq (b := c1) (by omega), octet_eq (b := c2) (by omega),
      octet_eq (b := c3) (by omega)]

/-! ## Texts -/

theorem decodeFrom_skip : ∀ (taken : Bytes) (index : Nat) (rest : Bytes),
    decodeFrom index taken.length (taken ++ rest) = decodeFrom (index + taken.length) 0 rest
  | [], _, _ => rfl
  | b :: taken, index, rest => by
    rw [List.cons_append, List.length_cons, decodeFrom, decodeFrom_skip taken, Nat.add_right_comm]
    rfl

theorem encode_cons (c : Char) (cs : List Char) : encode (c :: cs) = encodeChar c ++ encode cs := rfl

theorem encode_append (cs ds : List Char) : encode (cs ++ ds) = encode cs ++ encode ds := List.flatMap_append

theorem decodeFrom_encode_append : ∀ (cs : List Char) (index : Nat) (rest : Bytes),
    decodeFrom index 0 (encode cs ++ rest) =
      (decodeFrom (index + (encode cs).length) 0 rest).map (cs ++ ·)
  | [], index, rest => by
    rw [show encode [] = [] from rfl, List.nil_append, List.length_nil, Nat.add_zero]
    cases decodeFrom index 0 rest <;> rfl
  | c :: cs, index, rest => by
    obtain ⟨b, tail, hb, ht⟩ := takeChar_encodeChar c (encode cs ++ rest)
    rw [encode_cons, hb, List.cons_append, List.cons_append, List.append_assoc, decodeFrom, ht]
    dsimp only
    rw [decodeFrom_skip, decodeFrom_encode_append cs, List.length_cons, List.length_append,
      show index + (tail.length + (encode cs).length + 1) = index + 1 + tail.length + (encode cs).length by omega]
    cases decodeFrom (index + 1 + tail.length + (encode cs).length) 0 rest <;> rfl

theorem decode_encode (cs : List Char) : decode (encode cs) = .ok cs := by
  have h := decodeFrom_encode_append cs 0 []
  rw [List.append_nil, decodeFrom] at h
  simpa [decode, Except.map] using h

theorem encode_of_decodeFrom : ∀ (bs taken : Bytes) (index : Nat) {cs : List Char},
    decodeFrom index taken.length (taken ++ bs) = .ok cs → encode cs = bs := by
  intro bs
  induction h : bs.length using Nat.strongRecOn generalizing bs with
  | _ n ih =>
    intro taken index cs hd
    rw [decodeFrom_skip] at hd
    match bs, hd with
    | [], hd => cases hd; rfl
    | b :: bs, hd =>
      rw [decodeFrom] at hd
      cases ht : takeChar b.toNat bs with
      | error f => rw [ht] at hd; cases hd
      | ok r =>
        obtain ⟨c, k⟩ := r
        obtain ⟨tail, t, rfl, rfl, hc⟩ := encodeChar_of_takeChar ht
        rw [ht] at hd
        dsimp only at hd
        cases hr : decodeFrom (index + taken.length + 1) tail.length (tail ++ t) with
        | error m => rw [hr] at hd; cases hd
        | ok ds =>
          rw [hr] at hd
          cases hd
          have hlt : t.length < n := by
            subst h
            simp only [List.length_cons, List.length_append]
            omega
          rw [encode_cons, hc, ih t.length hlt t rfl tail _ hr]
          rfl

theorem decode_eq_ok_iff (bs : Bytes) (cs : List Char) : decode bs = .ok cs ↔ bs = encode cs := by
  constructor
  · intro h
    exact (encode_of_decodeFrom bs [] 0 h).symm
  · rintro rfl
    exact decode_encode cs

theorem encode_inj {cs ds : List Char} (h : encode cs = encode ds) : cs = ds := by
  have := decode_encode cs
  rw [h, decode_encode] at this
  exact (Except.ok.inj this).symm

/-- Valid octets that begin with a text go on with a text. -/
theorem encode_eq_append {cs ds : List Char} {rest : Bytes} (h : encode cs = encode ds ++ rest) :
    ∃ es, cs = ds ++ es ∧ rest = encode es := by
  have hd := decode_encode cs
  rw [h, decode, decodeFrom_encode_append] at hd
  cases hr : decodeFrom (0 + (encode ds).length) 0 rest with
  | error m => rw [hr] at hd; cases hd
  | ok es =>
    rw [hr] at hd
    refine ⟨es, (Except.ok.inj hd).symm, ?_⟩
    exact (encode_of_decodeFrom rest [] _ hr).symm

end Utf8

theorem toBytes_append (s t : String) : toBytes (s ++ t) = toBytes s ++ toBytes t := by
  unfold toBytes
  rw [String.toList_append, Utf8.encode_append]

end Switchboard
