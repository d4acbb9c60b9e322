/-
  Reflash.Proofs.Frame

  A packet and its frame determine each other. Reading takes a frame apart where writing
  has put it together, so bytes are read as a packet exactly when they begin with the
  frame of that packet, and what a frame must look like can be told from five of its
  places: the two markers, the kind and the two bytes of the length.
-/
import Reflash.Proofs.Codec

namespace Reflash

/-! ## Kinds -/

theorem PacketKind.code_of_ofCode {code : UInt8} {kind : PacketKind} (h : ofCode code = .ok kind) :
    kind.code = code := by
  unfold ofCode at h
  split at h <;> cases h <;> rfl

theorem PacketKind.exists_ofCode_iff {code : UInt8} :
    (∃ kind, ofCode code = .ok kind) ↔ code.toNat ≤ 4 := by
  constructor
  · rintro ⟨kind, h⟩
    rw [← code_of_ofCode h]
    cases kind <;> decide
  · intro h
    have hcases : code = 0 ∨ code = 1 ∨ code = 2 ∨ code = 3 ∨ code = 4 := by
      simp only [← UInt8.toNat_inj, UInt8.reduceToNat]
      omega
    rcases hcases with rfl | rfl | rfl | rfl | rfl <;> exact ⟨_, rfl⟩

namespace Packet

variable {packet : Packet} {bytes : Bytes}

/-! ## From bytes to a packet -/

/-- What reading a packet off a frame comes to. -/
theorem ofFrame_eq_ok_iff : ofFrame bytes = .ok packet ↔
    frameSize ≤ bytes.length ∧ bytes.byteAt 0 = startMarker ∧ bytes.byteAt 141 = endMarker
      ∧ PacketKind.ofCode (bytes.byteAt 1) = .ok packet.kind
      ∧ (LittleEndian.word16At bytes 7).toNat ≤ payloadSize
      ∧ packet = ⟨packet.kind, LittleEndian.word32At bytes 2, bytes.byteAt 6,
          LittleEndian.word16At bytes 7, Bytes.padTo 128 (bytes.drop 9),
          LittleEndian.word32At bytes 137, by simp⟩ := by
  rw [ofFrame]
  -- Check after check, as they are made: one that fails rules out either side.
  by_cases hlength : bytes.length < frameSize
  · rw [if_pos hlength]
    exact iff_of_false (by simp) fun h => absurd h.1 (by omega)
  rw [if_neg hlength]
  by_cases hmarkers : bytes.byteAt 0 ≠ startMarker ∨ bytes.byteAt 141 ≠ endMarker
  · rw [if_pos hmarkers]
    exact iff_of_false (by simp) fun h => hmarkers.elim (· h.2.1) (· h.2.2.1)
  rw [if_neg hmarkers]
  obtain ⟨hstart, hend⟩ := not_or.1 hmarkers
  cases hkind : PacketKind.ofCode (bytes.byteAt 1) with
  | error fault => exact iff_of_false (by simp [bind, Except.bind]) fun h => absurd h.2.2.2.1 (by simp)
  | ok kind =>
    show (if (LittleEndian.word16At bytes 7).toNat > payloadSize then _ else _) = _ ↔ _
    by_cases hused : (LittleEndian.word16At bytes 7).toNat > payloadSize
    · rw [if_pos hused]
      exact iff_of_false (by simp) fun h => absurd h.2.2.2.2.1 (by omega)
    rw [if_neg hused]
    constructor
    · intro h
      cases h
      exact ⟨by omega, Decidable.not_not.1 hstart, Decidable.not_not.1 hend, rfl, by omega, rfl⟩
    · rintro ⟨-, -, -, hsame, -, hpacket⟩
      rw [hpacket, ← Except.ok.inj hsame]

/-- Bytes that a packet is read off begin with its frame. -/
theorem toFrame_append_of_ofFrame (h : ofFrame bytes = .ok packet) :
    packet.toFrame ++ bytes.drop frameSize = bytes := by
  obtain ⟨hlength, hstart, hend, hkind, -, hpacket⟩ := ofFrame_eq_ok_iff.1 h
  have hsize : frameSize = 142 := rfl
  have hpayload : Bytes.padTo 128 (bytes.drop 9) ++ bytes.drop 137 = bytes.drop 9 := by
    rw [Bytes.padTo, List.length_drop, show 128 - (bytes.length - 9) = 0 by omega,
      List.replicate_zero, List.append_nil, show 137 = 9 + 128 from rfl, ← List.drop_drop,
      List.take_append_drop]
  -- The bytes, cut where the parts of a frame meet.
  calc packet.toFrame ++ bytes.drop frameSize
      = bytes.byteAt 0 :: bytes.byteAt 1 :: (LittleEndian.encode32 (LittleEndian.word32At bytes 2)
          ++ bytes.byteAt 6 :: (LittleEndian.encode16 (LittleEndian.word16At bytes 7)
          ++ (Bytes.padTo 128 (bytes.drop 9)
          ++ (LittleEndian.encode32 (LittleEndian.word32At bytes 137)
          ++ bytes.byteAt 141 :: bytes.drop 142)))) := by
        rw [hpacket, toFrame, PacketKind.code_of_ofCode hkind, hstart, hend]
        simp [hsize]
    _ = bytes := by
        rw [← Bytes.drop_eq_byteAt_cons (by omega), ← LittleEndian.drop_eq_encode32 (by omega),
          hpayload, ← LittleEndian.drop_eq_encode16 (by omega),
          ← Bytes.drop_eq_byteAt_cons (by omega), ← LittleEndian.drop_eq_encode32 (by omega),
          ← Bytes.drop_eq_byteAt_cons (by omega), ← Bytes.drop_eq_byteAt_cons (by omega),
          List.drop_zero]

/-- Behind its 142 bytes a frame is not looked at. -/
theorem ofFrame_take (bytes : Bytes) : ofFrame (bytes.take frameSize) = ofFrame bytes := by
  have hsize : frameSize = 142 := rfl
  by_cases hshort : bytes.length < frameSize
  · rw [List.take_of_length_le (by omega)]
  have hlength : ¬(bytes.take frameSize).length < frameSize := by
    rw [List.length_take]
    omega
  have hpayload : Bytes.padTo 128 ((bytes.take frameSize).drop 9)
      = Bytes.padTo 128 (bytes.drop 9) := by
    rw [Bytes.padTo, Bytes.padTo, List.drop_take, List.take_take, List.length_take,
      List.length_drop, show min 128 (frameSize - 9) = 128 from rfl,
      show 128 - min (frameSize - 9) (bytes.length - 9) = 128 - (bytes.length - 9) by omega]
  rw [ofFrame, ofFrame, if_neg hlength, if_neg hshort]
  simp only [hpayload, Bytes.byteAt_take (show 0 < frameSize by decide),
    Bytes.byteAt_take (show 1 < frameSize by decide),
    Bytes.byteAt_take (show 6 < frameSize by decide),
    Bytes.byteAt_take (show 141 < frameSize by decide),
    LittleEndian.word16At_take (show 7 + 2 ≤ frameSize by decide),
    LittleEndian.word32At_take (show 2 + 4 ≤ frameSize by decide),
    LittleEndian.word32At_take (show 137 + 4 ≤ frameSize by decide)]

/-! ## Both ways -/

/-- The bytes of the frame of some packet, followed by anything. -/
theorem exists_ofFrame_iff : (∃ packet, ofFrame bytes = .ok packet) ↔
    frameSize ≤ bytes.length ∧ bytes.byteAt 0 = startMarker ∧ bytes.byteAt 141 = endMarker
      ∧ (bytes.byteAt 1).toNat ≤ 4 ∧ (LittleEndian.word16At bytes 7).toNat ≤ payloadSize := by
  constructor
  · rintro ⟨packet, h⟩
    obtain ⟨hlength, hstart, hend, hkind, hused, -⟩ := ofFrame_eq_ok_iff.1 h
    exact ⟨hlength, hstart, hend, PacketKind.exists_ofCode_iff.1 ⟨_, hkind⟩, hused⟩
  · rintro ⟨hlength, hstart, hend, hcode, hused⟩
    obtain ⟨kind, hkind⟩ := PacketKind.exists_ofCode_iff.2 hcode
    exact ⟨⟨kind, _, _, _, _, _, _⟩,
      ofFrame_eq_ok_iff.2 ⟨hlength, hstart, hend, hkind, hused, rfl⟩⟩

/-- Writing puts the frame over the front of the buffer. -/
theorem writeTo_eq {buffer : Bytes} (h : frameSize ≤ buffer.length) :
    packet.writeTo buffer = .ok (packet.toFrame ++ buffer.drop frameSize) := by
  rw [writeTo, if_neg (by omega)]

/-- What is read off a buffer is what the frame at its front says. -/
theorem ofFrame_toFrame_append (packet : Packet) (behind : Bytes) :
    ofFrame (packet.toFrame ++ behind)
      = if packet.length.toNat > payloadSize then .error .invalidPacket else .ok packet := by
  rw [← ofFrame_take, List.take_left' packet.length_toFrame, ofFrame_toFrame_eq]

/-- Packets and frames correspond. Written into a buffer, a packet takes up its first 142 bytes and
is read back from them, unless it announces more than fits: then it is not read back. The bytes that
are read as a packet are told by their length, markers, kind and announced length, and such a packet
writes those bytes again. -/
theorem frames_correspond :
    (∀ (packet : Packet) (buffer : Bytes), 142 ≤ buffer.length →
      ∃ written, packet.writeTo buffer = .ok written ∧ written.length = buffer.length
        ∧ written.drop 142 = buffer.drop 142
        ∧ (packet.length.toNat ≤ 128 → ofFrame written = .ok packet)
        ∧ (128 < packet.length.toNat → ofFrame written = .error .invalidPacket))
    ∧ (∀ bytes : Bytes, (∃ packet, ofFrame bytes = .ok packet) ↔
      142 ≤ bytes.length ∧ bytes.byteAt 0 = 0xAA ∧ bytes.byteAt 141 = 0xBB
        ∧ (bytes.byteAt 1).toNat ≤ 4 ∧ (LittleEndian.word16At bytes 7).toNat ≤ 128)
    ∧ ∀ (bytes : Bytes) (packet : Packet), ofFrame bytes = .ok packet →
      ∀ buffer : Bytes, 142 ≤ buffer.length →
        packet.writeTo buffer = .ok (bytes.take 142 ++ buffer.drop 142) := by
  refine ⟨?_, fun _ => exists_ofFrame_iff, ?_⟩
  · intro packet buffer hroom
    refine ⟨_, writeTo_eq hroom, ?_, List.drop_left' packet.length_toFrame, ?_, ?_⟩
    · rw [List.length_append, packet.length_toFrame, List.length_drop]
      exact Nat.add_sub_cancel' hroom
    · intro hused
      exact (ofFrame_toFrame_append packet _).trans (if_neg (Nat.not_lt.2 hused))
    · intro hused
      exact (ofFrame_toFrame_append packet _).trans (if_pos hused)
  · intro bytes packet h buffer hroom
    have hfront : bytes.take frameSize = packet.toFrame := by
      rw [← toFrame_append_of_ofFrame h, List.take_left' packet.length_toFrame]
    rw [writeTo_eq hroom, ← hfront]
    rfl

/-- A packet that carries a full payload, as far as its announced length goes. -/
def brimming (length : UInt16) : Packet :=
  { blank with
    kind := .error, id := 0xDEADBEEF, sequence := 0xFF, length, crc := 0xBB0000AA
    payload := (List.range 128).map fun i => .ofNat (i + 0x80)
    payload_length := by simp }

/-- The longest payload is read back from behind 150 bytes of another use, and its frame is written
again; one byte more is not read. -/
theorem frames_correspond_brimming :
    (∃ written, (brimming 128).writeTo (List.replicate 150 0x55) = .ok written
      ∧ written.drop 142 = List.replicate 8 0x55
      ∧ ofFrame written = .ok (brimming 128)
      ∧ (brimming 128).writeTo (List.replicate 142 0) = .ok (written.take 142))
    ∧ ∃ written, (brimming 129).writeTo (List.replicate 150 0x55) = .ok written
      ∧ ofFrame written = .error .invalidPacket := by
  obtain ⟨written, hwritten, -, hbehind, hread, -⟩ :=
    frames_correspond.1 (brimming 128) (List.replicate 150 0x55) (by simp)
  obtain ⟨longer, hlonger, -, -, -, hrefused⟩ :=
    frames_correspond.1 (brimming 129) (List.replicate 150 0x55) (by simp)
  have hagain := frames_correspond.2.2 written _ (hread (by decide)) (List.replicate 142 0)
    (by simp)
  refine ⟨⟨written, hwritten, ?_, hread (by decide), ?_⟩, longer, hlonger, hrefused (by decide)⟩
  · rw [hbehind]
    rfl
  · rw [hagain]
    simp

end Packet

end Reflash
