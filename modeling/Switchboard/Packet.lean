import Switchboard.Failure
import Switchboard.Text.Utf8

/-!
# Packets and handshake tokens

A packet is a correlation id as four octets, least significant first, and the payload: whatever
remains. Every octet string of length at least four is a packet, and `decode_encode` says that a
packet reads back as what was written.
-/

namespace Switchboard

/-- What a peer sends to become a consumer. -/
def hello : Bytes := toBytes "Consumer"

/-- What a consumer is told when it is registered. -/
def helloAck : Bytes := toBytes "Connected to broker"

/-- The single octet that some peers send before they speak this protocol. It is no packet. -/
def apiHandshake : Bytes := [0xFF]

structure Packet where
  id : UInt32
  payload : Bytes
deriving DecidableEq, Repr

namespace Packet

/-- Four octets, least significant first. -/
def header (id : UInt32) : Bytes :=
  [.ofNat (id.toNat % 0x100), .ofNat (id.toNat / 0x100 % 0x100), .ofNat (id.toNat / 0x10000 % 0x100),
    .ofNat (id.toNat / 0x1000000)]

def encode (p : Packet) : Bytes := header p.id ++ p.payload

def decode : Bytes → Except Failure Packet
  | a :: b :: c :: d :: payload =>
    .ok ⟨.ofNat (a.toNat + b.toNat * 0x100 + c.toNat * 0x10000 + d.toNat * 0x1000000), payload⟩
  | short => .error (.truncatedPacket short.length)

theorem decode_encode (p : Packet) : decode p.encode = .ok p := by
  obtain ⟨id, payload⟩ := p
  have := id.toNat_lt
  simp only [encode, header, decode, List.cons_append, List.nil_append, UInt8.toNat_ofNat']
  congr 2
  apply UInt32.toNat_inj.1
  simp only [UInt32.toNat_ofNat']
  omega

theorem decode_isOk_iff (data : Bytes) : (decode data).isOk = true ↔ 4 ≤ data.length := by
  match data with
  | [] | [_] | [_, _] | [_, _, _] => simp [decode, Except.isOk, Except.toBool]
  | _ :: _ :: _ :: _ :: _ => simp [decode, Except.isOk, Except.toBool]

end Packet

end Switchboard
