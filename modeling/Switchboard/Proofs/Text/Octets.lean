import Switchboard.Proofs.Text.Utf8

/-!
# Octets of the standard library

The standard library knows UTF-8 too, as byte arrays. Its octets of a text are the ones of `toBytes`, so
a string of octets is UTF-8 in its sense exactly when `decode` takes it.
-/

namespace Switchboard

namespace Utf8

theorem encodeChar_eq (c : Char) : encodeChar c = String.utf8EncodeChar c := by
  have hv : c.toNat < 0xD800 ∨ (0xDFFF < c.toNat ∧ c.toNat < 0x110000) := c.valid
  unfold encodeChar String.utf8EncodeChar
  dsimp only
  rw [show c.val.toNat = c.toNat from rfl]
  generalize c.toNat = n at hv
  by_cases h1 : n < 0x80
  · rw [if_pos h1, if_pos (show n ≤ 127 by omega)]
  rw [if_neg h1, if_neg (show ¬ n ≤ 127 by omega)]
  have hlow : n % 64 + 128 = 0x80 + n % 0x40 := by omega
  have hmid : n / 64 % 64 + 128 = 0x80 + n / 0x40 % 0x40 := by omega
  by_cases h2 : n < 0x800
  · rw [if_pos h2, if_pos (show n ≤ 2047 by omega), hlow, show n / 64 % 32 + 192 = 0xC0 + n / 0x40 by omega]
  rw [if_neg h2, if_neg (show ¬ n ≤ 2047 by omega)]
  by_cases h3 : n < 0x10000
  · rw [if_pos h3, if_pos (show n ≤ 65535 by omega), hlow, hmid,
      show n / 4096 % 16 + 224 = 0xE0 + n / 0x1000 by omega]
  rw [if_neg h3, if_neg (show ¬ n ≤ 65535 by omega), hlow, hmid,
    show n / 262144 % 8 + 240 = 0xF0 + n / 0x40000 by omega,
    show n / 4096 % 64 + 128 = 0x80 + n / 0x1000 % 0x40 by omega]

theorem toByteArray_encode (cs : List Char) : (encode cs).toByteArray = cs.utf8Encode := by
  rw [encode, List.utf8Encode, funext encodeChar_eq]

theorem decode_isOk_iff (data : Bytes) : (∃ cs, decode data = .ok cs) ↔ data.toByteArray.IsValidUTF8 := by
  constructor
  · rintro ⟨cs, hd⟩
    rw [(decode_eq_ok_iff data cs).mp hd, toByteArray_encode]
    exact ⟨cs, rfl⟩
  · rintro ⟨cs, h⟩
    refine ⟨cs, (decode_eq_ok_iff data cs).mpr ?_⟩
    rwa [← toByteArray_encode, List.toByteArray_inj] at h

end Utf8

theorem toByteArray_toBytes (s : String) : (toBytes s).toByteArray = s.toUTF8 := by
  rw [toBytes, Utf8.toByteArray_encode, String.utf8Encode_toList, String.toUTF8_eq_toByteArray]

theorem toByteArray_eq_iff {data : Bytes} {s : String} : data.toByteArray = s.toUTF8 ↔ data = toBytes s := by
  rw [← toByteArray_toBytes, List.toByteArray_inj]

end Switchboard
