/-
  Reflash.Proofs.Codec

  What is encoded decodes again: words, frames, datagram headers, and the payloads of
  manifests, jump requests and acknowledgements. Decoding looks at a fixed number of
  bytes, so what lies behind these does not matter.
-/
import Reflash.Datagram.Acknowledgement
import Reflash.Datagram.JumpRequest
import Reflash.Datagram.Manifest

namespace Reflash

/-! ## Words -/

theorem Bytes.byteAt_eq {bytes behind : Bytes} {offset : Nat} {front : Bytes}
    (h : bytes.drop offset = front ++ behind) {i : Nat} (hi : i < front.length) :
    bytes.byteAt (offset + i) = front.byteAt i := by
  rw [Bytes.byteAt, Bytes.byteAt, List.getD_eq_getElem?_getD, List.getD_eq_getElem?_getD,
    ← List.getElem?_drop, h, List.getElem?_append_left hi]

namespace LittleEndian

/-- The four bytes at `offset` are those of the word that is read there. -/
theorem word32At_eq {bytes behind : Bytes} {offset : Nat} {word : UInt32}
    (h : bytes.drop offset = encode32 word ++ behind) : word32At bytes offset = word := by
  have hfirst := Bytes.byteAt_eq h (show 0 < (encode32 word).length by simp)
  rw [Nat.add_zero] at hfirst
  rw [word32At, hfirst, Bytes.byteAt_eq h (show 1 < (encode32 word).length by simp),
    Bytes.byteAt_eq h (show 2 < (encode32 word).length by simp),
    Bytes.byteAt_eq h (show 3 < (encode32 word).length by simp)]
  exact decode32_encode32 word

theorem word16At_eq {bytes behind : Bytes} {offset : Nat} {word : UInt16}
    (h : bytes.drop offset = encode16 word ++ behind) : word16At bytes offset = word := by
  have hfirst := Bytes.byteAt_eq h (show 0 < (encode16 word).length by simp)
  rw [Nat.add_zero] at hfirst
  rw [word16At, hfirst, Bytes.byteAt_eq h (show 1 < (encode16 word).length by simp)]
  exact decode16_encode16 word

end LittleEndian

/-! ## Words where they lie -/

/-- From `offset` on, bytes begin with the byte that is read there. -/
theorem Bytes.drop_eq_byteAt_cons {bytes : Bytes} {offset : Nat} (h : offset < bytes.length) :
    bytes.drop offset = bytes.byteAt offset :: bytes.drop (offset + 1) := by
  rw [List.drop_eq_getElem_cons h, byteAt, List.getD_eq_getElem?_getD,
    List.getElem?_eq_getElem h, Option.getD_some]

theorem Bytes.byteAt_take {bytes : Bytes} {n i : Nat} (h : i < n) :
    byteAt (bytes.take n) i = bytes.byteAt i := by
  rw [byteAt, byteAt, List.getD_eq_getElem?_getD, List.getD_eq_getElem?_getD,
    List.getElem?_take_of_lt h]

namespace LittleEndian

/-- From `offset` on, bytes begin with those of the word that is read there. -/
theorem drop_eq_encode32 {bytes : Bytes} {offset : Nat} (h : offset + 4 ≤ bytes.length) :
    bytes.drop offset = encode32 (word32At bytes offset) ++ bytes.drop (offset + 4) := by
  rw [word32At, encode32_decode32, Bytes.drop_eq_byteAt_cons (by omega : offset < bytes.length),
    Bytes.drop_eq_byteAt_cons (by omega : offset + 1 < bytes.length),
    Bytes.drop_eq_byteAt_cons (by omega : offset + 2 < bytes.length),
    Bytes.drop_eq_byteAt_cons (by omega : offset + 3 < bytes.length)]
  rfl

theorem drop_eq_encode16 {bytes : Bytes} {offset : Nat} (h : offset + 2 ≤ bytes.length) :
    bytes.drop offset = encode16 (word16At bytes offset) ++ bytes.drop (offset + 2) := by
  rw [word16At, encode16_decode16, Bytes.drop_eq_byteAt_cons (by omega : offset < bytes.length),
    Bytes.drop_eq_byteAt_cons (by omega : offset + 1 < bytes.length)]
  rfl

theorem word32At_take {bytes : Bytes} {n offset : Nat} (h : offset + 4 ≤ n) :
    word32At (bytes.take n) offset = word32At bytes offset := by
  rw [word32At, word32At, Bytes.byteAt_take (by omega), Bytes.byteAt_take (by omega),
    Bytes.byteAt_take (by omega), Bytes.byteAt_take (by omega)]

theorem word16At_take {bytes : Bytes} {n offset : Nat} (h : offset + 2 ≤ n) :
    word16At (bytes.take n) offset = word16At bytes offset := by
  rw [word16At, word16At, Bytes.byteAt_take (by omega), Bytes.byteAt_take (by omega)]

end LittleEndian

theorem Bytes.padTo_append {n : Nat} {front : Bytes} (h : front.length = n) (behind : Bytes) :
    padTo n (front ++ behind) = front := by
  rw [padTo, List.take_left' h, List.length_append,
    show n - (front.length + behind.length) = 0 from by omega, List.replicate_zero,
    List.append_nil]

/-! ## Payloads -/

theorem FirmwareId.ofBytes_append (id : FirmwareId) (behind : Bytes) :
    ofBytes (id.bytes ++ behind) = id := by
  obtain ⟨bytes, hlength⟩ := id
  rw [ofBytes]
  congr 1
  exact Bytes.padTo_append hlength behind

namespace Manifest

@[simp] theorem length_encode (manifest : Manifest) : manifest.encode.length = encodedSize := by
  simp [encode, manifest.id.length_bytes, encodedSize]

theorem decode_encode (manifest : Manifest) (behind : Bytes) :
    decode (manifest.encode ++ behind) = .ok manifest := by
  have hsize : LittleEndian.word32At (manifest.encode ++ behind) 0 = manifest.size :=
    LittleEndian.word32At_eq (by rw [List.drop_zero, encode, List.append_assoc])
  have hcrc : LittleEndian.word32At (manifest.encode ++ behind) 4 = manifest.crc :=
    LittleEndian.word32At_eq (by simp [encode, LittleEndian.encode32]; rfl)
  have hid : (manifest.encode ++ behind).drop 10 = manifest.id.bytes ++ behind := by
    simp [encode, LittleEndian.encode32]
  rw [decode, if_neg (by rw [List.length_append, length_encode]; omega), hsize, hcrc, hid,
    FirmwareId.ofBytes_append]
  rfl

end Manifest

namespace JumpRequest

/-- A request that a node obeys is read back. -/
theorem decode_encode (behind : Bytes) : decode (encode {} ++ behind) = .ok {} := by
  have hmagic : LittleEndian.word32At (encode {} ++ behind) 0 = agreedMagic :=
    LittleEndian.word32At_eq (by rw [List.drop_zero, encode, List.append_assoc]; rfl)
  have hvalidation : (encode {} ++ behind).byteAt 4 = 1 := rfl
  have hlength : ¬(encode {} ++ behind).length < encodedSize := by
    rw [List.length_append]
    exact Nat.not_lt.2 (Nat.le_add_right 5 _)
  rw [decode, hmagic, hvalidation, if_neg hlength]
  rfl

end JumpRequest

namespace Datagram

theorem Kind.ofCode_code (kind : Kind) : ofCode kind.code = .ok kind := by
  cases kind <;> rfl

namespace Header

theorem decode_encode (header : Header) : decode header.encode = .ok header := by
  have hid : LittleEndian.word32At header.encode 1 = header.id :=
    LittleEndian.word32At_eq (by simp [encode]; rfl)
  have htotal : LittleEndian.word32At header.encode 5 = header.total :=
    LittleEndian.word32At_eq (by simp [encode, LittleEndian.encode32]; rfl)
  have hpackets : LittleEndian.word16At header.encode 9 = header.packets :=
    LittleEndian.word16At_eq (by simp [encode, LittleEndian.encode32]; rfl)
  have hcrc : LittleEndian.word32At header.encode 11 = header.crc :=
    LittleEndian.word32At_eq
      (by simp [encode, LittleEndian.encode32, LittleEndian.encode16]; rfl)
  have hkind : header.encode.byteAt 0 = header.kind.code := rfl
  rw [decode, if_neg (by rw [length_encode]; omega), hid, htotal, hpackets, hcrc, hkind,
    Kind.ofCode_code]
  obtain ⟨kind, id, total, packets, crc, target⟩ := header
  cases target <;> rfl

end Header

end Datagram

namespace Acknowledgement

@[simp] theorem length_encode (ack : Acknowledgement) : ack.encode.length = encodedSize := by
  rfl

theorem decode_encode (ack : Acknowledgement) (behind : Bytes) :
    decode (ack.encode ++ behind) = .ok ack := by
  have hid : LittleEndian.word32At (ack.encode ++ behind) 2 = ack.id :=
    LittleEndian.word32At_eq (by simp [encode]; rfl)
  have hcode : LittleEndian.word32At (ack.encode ++ behind) 6 = ack.code :=
    LittleEndian.word32At_eq (by simp [encode, LittleEndian.encode32]; rfl)
  have hkind : (ack.encode ++ behind).byteAt 1 = ack.kind.code := rfl
  rw [decode, if_neg (by rw [List.length_append, length_encode]; omega), hid, hcode, hkind,
    Datagram.Kind.ofCode_code]
  obtain ⟨accepted, kind, id, code⟩ := ack
  cases accepted <;> rfl

end Acknowledgement

/-! ## Frames -/

theorem PacketKind.ofCode_code (kind : PacketKind) : ofCode kind.code = .ok kind := by
  cases kind <;> rfl

namespace Packet

/-- What a packet's own frame is read as: the packet, checksum and all, unless it announces more
than fits. -/
theorem ofFrame_toFrame_eq (packet : Packet) : ofFrame packet.toFrame
    = if packet.length.toNat > payloadSize then .error .invalidPacket else .ok packet := by
  have hid : LittleEndian.word32At packet.toFrame 2 = packet.id :=
    LittleEndian.word32At_eq (by simp [toFrame]; rfl)
  have hused : LittleEndian.word16At packet.toFrame 7 = packet.length :=
    LittleEndian.word16At_eq (by simp [toFrame, LittleEndian.encode32]; rfl)
  have hpayload : packet.toFrame.drop 9
      = packet.payload ++ (LittleEndian.encode32 packet.crc ++ [endMarker]) := by
    simp [toFrame, LittleEndian.encode32, LittleEndian.encode16]
  have hbehind : packet.toFrame.drop 137
      = LittleEndian.encode32 packet.crc ++ [endMarker] := by
    rw [show 137 = 9 + 128 from rfl, ← List.drop_drop, hpayload,
      List.drop_left' packet.payload_length]
  have hcrc : LittleEndian.word32At packet.toFrame 137 = packet.crc :=
    LittleEndian.word32At_eq hbehind
  have hend : packet.toFrame.byteAt 141 = endMarker := by
    rw [← List.append_nil (LittleEndian.encode32 packet.crc ++ [endMarker])] at hbehind
    exact Bytes.byteAt_eq hbehind (show 4 < 5 by decide)
  have hstart : packet.toFrame.byteAt 0 = startMarker := rfl
  have hkind : packet.toFrame.byteAt 1 = packet.kind.code := rfl
  have hseq : packet.toFrame.byteAt 6 = packet.sequence := rfl
  rw [ofFrame, if_neg (by rw [length_toFrame]; omega), hstart, hend, hkind,
    PacketKind.ofCode_code, if_neg (by simp)]
  show (if (LittleEndian.word16At packet.toFrame 7).toNat > payloadSize then _ else _) = _
  simp only [hused, hid, hseq, hpayload, Bytes.padTo_append packet.payload_length, hcrc]

/-- A frame is read back, checksum and all, whatever it carries. -/
theorem ofFrame_toFrame (packet : Packet) (hlength : packet.length.toNat ≤ payloadSize) :
    ofFrame packet.toFrame = .ok packet := by
  rw [ofFrame_toFrame_eq, if_neg (Nat.not_lt.2 hlength)]

end Packet

/-! ## Datagrams -/

namespace Datagram

/-- Slots filled with consecutive pieces stand for the whole, and zeros. -/
theorem take_flatMap_slotBytes (data : Bytes) :
    (((data.pieces 128).map some).flatMap slotBytes).take data.length = data := by
  fun_induction Bytes.pieces 128 data with
  | case1 data h =>
    rw [List.length_eq_zero_iff.1 (h.resolve_right (by decide))]
    rfl
  | case2 data h ih =>
    rw [List.map_cons, List.flatMap_cons]
    show (Bytes.padTo 128 (data.take 128) ++ _).take data.length = data
    rcases Nat.le_total data.length 128 with hle | hle
    · rw [List.take_of_length_le hle, List.take_append_of_le_length
        (by rw [Bytes.length_padTo]; exact hle), Bytes.padTo, List.take_of_length_le hle,
        List.take_left]
    · rw [Bytes.padTo_of_length (by rw [List.length_take]; omega), List.take_append,
        List.take_of_length_le (by rw [List.length_take]; omega), List.length_take,
        Nat.min_eq_left hle, ← List.length_drop, ih, List.take_append_drop]

/-- A datagram gives back the data that it was made for. -/
theorem data_pack (kind : Kind) (id : UInt32) (target : Option UInt8) {data : Bytes}
    (h : data.length ≤ maxSize) : (pack kind id target data).data = data := by
  have hmax : maxSize = 2048 := rfl
  have htotal : (UInt32.ofNat data.length).toNat = data.length := by
    rw [UInt32.toNat_ofNat']
    omega
  show List.take (UInt32.ofNat data.length).toNat _ = data
  rw [htotal]
  exact take_flatMap_slotBytes data

end Datagram

end Reflash
