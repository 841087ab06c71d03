import CoffeeChat.Core.Client
import CoffeeChat.Base.BufferLemmas

/-!
# The frame format

A frame is a 16-byte header, every field in network order, followed by the body. `encode` and
`decode` are the format on byte strings, stated without reference to the buffer that produces or
consumes them, and `decode_encode` says they agree on every header. A `Packet` is a well-framed
one: its length field counts header and body, the body is not empty, and the whole is shorter
than `kMaxBufferLen`.
-/

namespace CoffeeChat

open Lib Lib.Endian

namespace IMHeader

/-- The sixteen bytes of a header. -/
def encode (h : IMHeader) : Bytes :=
  beBytes 4 h.len.toNat ++ beBytes 2 h.version.toNat ++ beBytes 2 h.flag.toNat ++
    beBytes 2 h.serviceId.toNat ++ beBytes 2 h.cmd.toNat ++ beBytes 2 h.seq.toNat ++
    beBytes 2 h.reserved.toNat

/-- The half word at an offset. -/
def halfAt (u : Bytes) (pos : Nat) : UInt16 := UInt16.ofNat (beValue ((u.drop pos).take 2))

/-- The header at the front of a byte string. -/
def decode (u : Bytes) : IMHeader where
  len := UInt32.ofNat (beValue (u.take 4))
  version := halfAt u 4
  flag := halfAt u 6
  serviceId := halfAt u 8
  cmd := halfAt u 10
  seq := halfAt u 12
  reserved := halfAt u 14

@[simp] theorem length_encode (h : IMHeader) : h.encode.length = sizeofIMHeader := by
  simp [encode, sizeofIMHeader]

/-- A half word behind `pos` other bytes is the one at that offset. -/
theorem halfAt_append {pre : Bytes} {pos : Nat} (x : UInt16) (t : Bytes) (h : pre.length = pos) :
    halfAt (pre ++ (beBytes 2 x.toNat ++ t)) pos = x := by
  have htake : (beBytes 2 x.toNat ++ t).take 2 = beBytes 2 x.toNat := by
    rw [List.take_append_of_le_length (by simp), List.take_of_length_le (by simp)]
  rw [halfAt, ← h, List.drop_left, htake, beValue_beBytes,
    Nat.mod_eq_of_lt (show x.toNat < 256 ^ 2 from x.toNat_lt), UInt16.ofNat_toNat]

/-- A header is read back from its encoding, whatever follows it. -/
theorem decode_encode (h : IMHeader) (t : Bytes) : decode (h.encode ++ t) = h := by
  have hlen : UInt32.ofNat (beValue ((h.encode ++ t).take 4)) = h.len := by
    have htake : (h.encode ++ t).take 4 = beBytes 4 h.len.toNat := by
      simp only [encode, List.append_assoc]
      rw [List.take_append_of_le_length (by simp), List.take_of_length_le (by simp)]
    rw [htake, beValue_beBytes, Nat.mod_eq_of_lt (show h.len.toNat < 256 ^ 4 from h.len.toNat_lt),
      UInt32.ofNat_toNat]
  have hversion : halfAt (h.encode ++ t) 4 = h.version := by
    simp only [encode, List.append_assoc]
    exact halfAt_append _ _ (by simp)
  have hflag : halfAt (h.encode ++ t) 6 = h.flag := by
    simp only [encode, List.append_assoc]
    rw [← List.append_assoc]
    exact halfAt_append _ _ (by simp)
  have hservice : halfAt (h.encode ++ t) 8 = h.serviceId := by
    simp only [encode, List.append_assoc]
    rw [← List.append_assoc, ← List.append_assoc]
    exact halfAt_append _ _ (by simp)
  have hcmd : halfAt (h.encode ++ t) 10 = h.cmd := by
    simp only [encode, List.append_assoc]
    rw [← List.append_assoc, ← List.append_assoc, ← List.append_assoc]
    exact halfAt_append _ _ (by simp)
  have hseq : halfAt (h.encode ++ t) 12 = h.seq := by
    simp only [encode, List.append_assoc]
    rw [← List.append_assoc, ← List.append_assoc, ← List.append_assoc, ← List.append_assoc]
    exact halfAt_append _ _ (by simp)
  have hreserved : halfAt (h.encode ++ t) 14 = h.reserved := by
    simp only [encode, List.append_assoc]
    rw [← List.append_assoc, ← List.append_assoc, ← List.append_assoc, ← List.append_assoc,
      ← List.append_assoc]
    exact halfAt_append _ _ (by simp)
  simp only [decode, hlen, hversion, hflag, hservice, hcmd, hseq, hreserved]

end IMHeader

/-- A well-framed packet. -/
structure Packet where
  header : IMHeader
  body : Bytes
  len_eq : header.len.toNat = sizeofIMHeader + body.length
  body_ne_nil : body ≠ []
  len_lt : header.len < kMaxBufferLen

namespace Packet

/-- The packet on the wire. -/
def bytes (p : Packet) : Bytes := p.header.encode ++ p.body

/-- Packets on the wire, one behind the other. -/
def wire (ps : List Packet) : Bytes := ps.flatMap bytes

@[simp] theorem wire_nil : wire [] = [] := rfl

@[simp] theorem wire_cons (p : Packet) (ps : List Packet) :
    wire (p :: ps) = p.bytes ++ wire ps := rfl

theorem body_pos (p : Packet) : 0 < p.body.length := List.length_pos_iff.mpr p.body_ne_nil

@[simp] theorem length_bytes (p : Packet) : p.bytes.length = sizeofIMHeader + p.body.length := by
  simp [bytes]

theorem len_toNat_lt (p : Packet) : p.header.len.toNat < 10240 := by
  simpa [kMaxBufferLen] using UInt32.lt_iff_toNat_lt.mp p.len_lt

@[simp] theorem decode_bytes (p : Packet) (t : Bytes) :
    IMHeader.decode (p.bytes ++ t) = p.header := by
  rw [bytes, List.append_assoc, IMHeader.decode_encode]

@[simp] theorem drop_bytes (p : Packet) (t : Bytes) :
    (p.bytes ++ t).drop sizeofIMHeader = p.body ++ t := by
  rw [bytes, List.append_assoc, ← p.header.length_encode, List.drop_left]

/-- A packet is shorter than 16 MiB, so its first byte is zero. -/
theorem bytes_eq_zero_cons (p : Packet) : ∃ t, p.bytes = 0 :: t := by
  have hlt := p.len_toNat_lt
  have hzero : p.header.len.toNat / 256 ^ 3 = 0 := by omega
  simp only [bytes, IMHeader.encode, beBytes_succ 3, hzero, List.cons_append]
  exact ⟨_, rfl⟩

end Packet

/-! ## Two packets -/

/-- A login response with the result code of success. -/
def loginResponse : Packet where
  header := ⟨19, 1, 0, 0, 0x0108, 1, 0⟩
  body := [0x10, 0xc8, 0x01]
  len_eq := by decide
  body_ne_nil := by decide
  len_lt := by decide

/-- A chat message of type one, with nothing else in it. -/
def chatMessage : Packet where
  header := ⟨18, 1, 0, 0, 0x0301, 1, 0⟩
  body := [0x38, 0x01]
  len_eq := by decide
  body_ne_nil := by decide
  len_lt := by decide

end CoffeeChat
