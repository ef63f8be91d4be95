import Switchboard.Packet

/-!
# Packets and octet strings

Every octet string of length at least four is the encoding of one packet, the one it decodes to. The id is
the number that the first four octets spell (`encodes_one_to_one`).
-/

namespace Switchboard.Packet

theorem encode_of_decode {data : Bytes} {p : Packet} (h : decode data = .ok p) : p.encode = data := by
  match data, h with
  | a :: b :: c :: d :: payload, h =>
    obtain rfl := Except.ok.inj h
    have ha := a.toNat_lt
    have hb := b.toNat_lt
    have hc := c.toNat_lt
    have hd := d.toNat_lt
    have hn : (UInt32.ofNat (a.toNat + b.toNat * 0x100 + c.toNat * 0x10000 + d.toNat * 0x1000000)).toNat =
        a.toNat + b.toNat * 0x100 + c.toNat * 0x10000 + d.toNat * 0x1000000 := by
      rw [UInt32.toNat_ofNat']; omega
    simp only [encode, header, hn, List.cons_append, List.nil_append]
    congr 1
    · apply UInt8.toNat_inj.1; rw [UInt8.toNat_ofNat']; omega
    · congr 1
      · apply UInt8.toNat_inj.1; rw [UInt8.toNat_ofNat']; omega
      · congr 1
        · apply UInt8.toNat_inj.1; rw [UInt8.toNat_ofNat']; omega
        · congr 1
          apply UInt8.toNat_inj.1; rw [UInt8.toNat_ofNat']; omega
  | [], h | [_], h | [_, _], h | [_, _, _], h => cases h

theorem decode_eq_ok_iff (data : Bytes) (p : Packet) : decode data = .ok p ↔ data = p.encode :=
  ⟨fun h => (encode_of_decode h).symm, fun h => h ▸ decode_encode p⟩

/-- The number that octets spell, the least significant first. -/
def littleEndian : Bytes → Nat
  | [] => 0
  | b :: bs => b.toNat + 0x100 * littleEndian bs

theorem length_encode (p : Packet) : p.encode.length = 4 + p.payload.length := by
  rw [encode, List.length_append]
  rfl

theorem littleEndian_header (id : UInt32) : littleEndian (header id) = id.toNat := by
  have := id.toNat_lt
  simp only [header, littleEndian, UInt8.toNat_ofNat']
  omega

/-- Nothing wraps: the id is the number that the header spells. -/
theorem toNat_of_decode {data : Bytes} {p : Packet} (h : decode data = .ok p) :
    p.id.toNat = littleEndian (data.take 4) ∧ p.payload = data.drop 4 := by
  rw [← encode_of_decode h]
  exact ⟨(littleEndian_header p.id).symm, rfl⟩

theorem decode_of_le {data : Bytes} (h : 4 ≤ data.length) : ∃ p, decode data = .ok p ∧ p.encode = data := by
  have hok := (decode_isOk_iff data).mpr h
  cases hd : decode data with
  | error f => rw [hd] at hok; cases hok
  | ok p => exact ⟨p, rfl, encode_of_decode hd⟩

theorem decode_of_lt {data : Bytes} (h : data.length < 4) :
    decode data = .error (.truncatedPacket data.length) := by
  match data, h with
  | [], _ | [_], _ | [_, _], _ | [_, _, _], _ => rfl
  | _ :: _ :: _ :: _ :: _, h => simp at h; omega

theorem encode_injective : Function.Injective encode := by
  intro p q h
  have hd := decode_encode p
  rw [h, decode_encode] at hd
  exact (Except.ok.inj hd).symm

theorem encode_ne_apiHandshake (p : Packet) : p.encode ≠ apiHandshake := by
  intro h
  have hl := p.length_encode
  rw [h, apiHandshake, List.length_singleton] at hl
  omega

/-- **The codec is one to one** between packets and octet strings of length at least four. The header is the
id in little-endian octets, exactly, and what is shorter, such as the handshake octet, is no packet. -/
theorem encodes_one_to_one :
    (∀ p : Packet, decode p.encode = .ok p ∧ p.encode.length = 4 + p.payload.length ∧
      littleEndian (p.encode.take 4) = p.id.toNat ∧ p.encode.drop 4 = p.payload) ∧
    (∀ data : Bytes, 4 ≤ data.length → ∃ p, decode data = .ok p ∧ p.encode = data ∧
      p.id.toNat = littleEndian (data.take 4) ∧ p.payload = data.drop 4) ∧
    (∀ data : Bytes, data.length < 4 → decode data = .error (.truncatedPacket data.length)) ∧
    Function.Injective encode ∧ ∀ p : Packet, p.encode ≠ apiHandshake := by
  refine ⟨fun p => ⟨decode_encode p, length_encode p, littleEndian_header p.id, rfl⟩, ?_, ?_, encode_injective,
    encode_ne_apiHandshake⟩
  · intro data h
    obtain ⟨p, hp, he⟩ := decode_of_le h
    exact ⟨p, hp, he, toNat_of_decode hp⟩
  · intro data h
    exact decode_of_lt h

/-- The largest id, and a handshake octet in front of too few others. -/
theorem encodes_one_to_one_largest :
    4 ≤ ([0xFF, 0xFF, 0xFF, 0xFF, 0x07] : Bytes).length ∧ (apiHandshake ++ [0, 0]).length < 4 ∧
    (∃ p, decode [0xFF, 0xFF, 0xFF, 0xFF, 0x07] = .ok p ∧ p.encode = [0xFF, 0xFF, 0xFF, 0xFF, 0x07] ∧
      p.id.toNat = 4294967295 ∧ p.payload = [0x07]) ∧
    decode (apiHandshake ++ [0, 0]) = .error (.truncatedPacket 3) := by
  have hl : 4 ≤ ([0xFF, 0xFF, 0xFF, 0xFF, 0x07] : Bytes).length := by decide
  have hs : (apiHandshake ++ [0, 0]).length < 4 := by decide
  obtain ⟨p, hp, he, hi, hd⟩ := encodes_one_to_one.2.1 _ hl
  exact ⟨hl, hs, ⟨p, hp, he, hi, hd⟩, encodes_one_to_one.2.2.1 _ hs⟩

end Switchboard.Packet
