import Switchboard.Proofs.Text.Utf8

/-!
# The order of texts

The order of texts by their characters is the one by their octets: the first character in which two texts
differ decides either, whatever follows it (`encodeChar_append_lt`).
-/

namespace Switchboard

namespace Utf8

theorem cons_octet_lt {m n : Nat} (hm : m < 0x100) (hn : n < 0x100) {x y : Bytes} :
    UInt8.ofNat m :: x < UInt8.ofNat n :: y ↔ m < n ∨ m = n ∧ x < y := by
  rw [List.cons_lt_cons_iff, UInt8.lt_iff_toNat_lt, ← UInt8.toNat_inj, toNat_octet hm, toNat_octet hn]

theorem encodeChar_append_lt {c d : Char} (h : c < d) (x y : Bytes) :
    encodeChar c ++ x < encodeChar d ++ y := by
  have hlt : c.toNat < d.toNat := h
  have hd : d.toNat < 0xD800 ∨ (0xDFFF < d.toNat ∧ d.toNat < 0x110000) := d.valid
  unfold encodeChar
  dsimp only
  generalize c.toNat = m at hlt
  generalize d.toNat = n at hlt hd
  -- a longer form starts with a larger octet, and of two equally long ones the octets are the digits
  repeat' split
  all_goals
    simp (disch := omega) only [List.cons_append, cons_octet_lt]
    omega

theorem encode_lt {cs ds : List Char} (h : cs < ds) : encode cs < encode ds := by
  induction h with
  | @nil d ds =>
    obtain ⟨b, tail, he, -⟩ := takeChar_encodeChar d []
    rw [encode_cons, he]
    exact List.nil_lt_cons b _
  | cons h ih => exact List.append_left_lt ih
  | rel h => exact encodeChar_append_lt h _ _

end Utf8

theorem toBytes_lt {s t : String} (h : s < t) : toBytes s < toBytes t := Utf8.encode_lt (String.lt_iff.mp h)

end Switchboard
