/-
  Reflash.Proofs.Reassembly

  From a datagram to frames and back. The frames of a datagram carry all of it, so
  whatever of them come, in whatever order and however often, what is under way is
  always a part of that datagram, and what is delivered is the datagram itself. When
  all come, header first, it is delivered.
-/
import Reflash.Link.Endpoint
import Reflash.Proofs.Checksum
import Reflash.Proofs.Codec

namespace Reflash

/-! ## Pieces -/

namespace Bytes

theorem pieces_nil (size : Nat) : pieces size [] = [] := by
  rw [pieces, dif_pos (.inl rfl)]

theorem pieces_of_ne_nil {size : Nat} (hsize : 0 < size) {bytes : Bytes} (h : bytes ≠ []) :
    bytes.pieces size = bytes.take size :: pieces size (bytes.drop size) := by
  have hlength := List.length_pos_iff.2 h
  rw [pieces, dif_neg (by omega)]

theorem length_pieces {size : Nat} (hsize : 0 < size) (bytes : Bytes) :
    (bytes.pieces size).length = (bytes.length + size - 1) / size := by
  fun_induction Bytes.pieces size bytes with
  | case1 bytes h =>
    rw [h.resolve_right (by omega), List.length_nil, Nat.zero_add]
    exact (Nat.div_eq_of_lt (by omega)).symm
  | case2 bytes h ih =>
    have hpos : 0 < bytes.length := by omega
    rw [List.length_cons, ih, List.length_drop]
    rcases Nat.le_total size bytes.length with hle | hle
    · rw [show bytes.length + size - 1 = bytes.length - size + size - 1 + size from by omega,
        Nat.add_div_right _ hsize]
    · rw [Nat.sub_eq_zero_of_le hle, Nat.zero_add, Nat.div_eq_of_lt (by omega : size - 1 < size),
        show bytes.length + size - 1 = bytes.length - 1 + size from by omega,
        Nat.add_div_right _ hsize, Nat.div_eq_of_lt (by omega : bytes.length - 1 < size)]

theorem getElem?_pieces {size : Nat} (bytes : Bytes) {i : Nat}
    (h : i < (bytes.pieces size).length) :
    (bytes.pieces size)[i]? = some ((bytes.drop (i * size)).take size) := by
  fun_induction Bytes.pieces size bytes generalizing i with
  | case1 bytes h' => exact absurd h (Nat.not_lt_zero _)
  | case2 bytes h' ih =>
    cases i with
    | zero => rw [List.getElem?_cons_zero, Nat.zero_mul, List.drop_zero]
    | succ i =>
      rw [List.length_cons, Nat.add_lt_add_iff_right] at h
      rw [List.getElem?_cons_succ, ih h, List.drop_drop, Nat.succ_mul, Nat.add_comm]

/-- Blocks of one size are the pieces of what they make up. -/
theorem pieces_flatten {size : Nat} (hsize : 0 < size) {blocks : List Bytes}
    (h : ∀ block ∈ blocks, block.length = size) : pieces size blocks.flatten = blocks := by
  induction blocks with
  | nil => exact pieces_nil size
  | cons block blocks ih =>
    have hblock := h block List.mem_cons_self
    rw [List.flatten_cons, pieces_of_ne_nil hsize, List.take_left' hblock,
      List.drop_left' hblock, ih fun block' hmem => h block' (List.mem_cons_of_mem _ hmem)]
    intro hnil
    rw [List.append_eq_nil_iff] at hnil
    rw [hnil.1, List.length_nil] at hblock
    omega

/-- No piece is empty. -/
theorem length_pos_of_mem_pieces {size : Nat} {bytes piece : Bytes}
    (h : piece ∈ bytes.pieces size) : 0 < piece.length := by
  fun_induction Bytes.pieces size bytes with
  | case1 bytes h' => exact absurd h List.not_mem_nil
  | case2 bytes h' ih =>
    rcases List.mem_cons.1 h with rfl | h
    · rw [List.length_take]
      omega
    · exact ih h

/-- Only the last piece may be shorter than the others. -/
theorem length_of_mem_dropLast_pieces {size : Nat} {bytes piece : Bytes}
    (h : piece ∈ (bytes.pieces size).dropLast) : piece.length = size := by
  fun_induction Bytes.pieces size bytes with
  | case1 bytes h' => exact absurd h List.not_mem_nil
  | case2 bytes h' ih =>
    by_cases hrest : pieces size (bytes.drop size) = []
    · rw [hrest] at h
      exact absurd h List.not_mem_nil
    rw [List.dropLast_cons_of_ne_nil hrest] at h
    rcases List.mem_cons.1 h with rfl | h
    · have hne : bytes.drop size ≠ [] := by
        intro hnil
        rw [hnil, pieces_nil] at hrest
        exact hrest rfl
      have hlength := List.length_pos_iff.2 hne
      rw [List.length_drop] at hlength
      rw [List.length_take]
      omega
    · exact ih h

end Bytes

/-! ## Packets of a datagram -/

theorem Packet.used_sealed_carrying (packet : Packet) {data : Bytes}
    (h : data.length ≤ payloadSize) : (packet.carrying data).sealed.used = data := by
  have hsize : payloadSize = 128 := rfl
  have hlength : (UInt16.ofNat (min data.length payloadSize)).toNat = data.length := by
    rw [UInt16.toNat_ofNat']
    omega
  show List.take (UInt16.ofNat (min data.length payloadSize)).toNat (data.padTo 128) = data
  have hfront : List.take 128 data = data := List.take_of_length_le (by omega)
  rw [hlength, Bytes.padTo, hfront, List.take_left]

theorem Packet.length_sealed_carrying_le (packet : Packet) (data : Bytes) :
    (packet.carrying data).sealed.length.toNat ≤ payloadSize := by
  have hsize : payloadSize = 128 := rfl
  show (UInt16.ofNat (min data.length payloadSize)).toNat ≤ payloadSize
  rw [UInt16.toNat_ofNat']
  omega

namespace Datagram

/-- A datagram with a header that fits its slots, and slots filled as its packets fill them. -/
structure Whole (datagram : Datagram) : Prop where
  pos : 0 < datagram.slots.length
  room : datagram.slots.length ≤ maxDataPackets
  packets_eq : datagram.header.packets.toNat = datagram.slots.length
  check_eq : datagram.header.check = .ok ()
  slot_eq : ∀ i < datagram.slots.length,
    datagram.slots[i]? = some (some ((datagram.data.drop (i * 128)).take 128))
  crc_eq : Crc32.padded datagram.data = datagram.header.crc

theorem length_slots_pack (kind : Kind) (id : UInt32) (target : Option UInt8) (data : Bytes) :
    (pack kind id target data).slots.length = packetsFor data.length := by
  show ((data.pieces 128).map some).length = _
  rw [List.length_map, Bytes.length_pieces (by decide)]
  rfl

/-- A datagram made for data that fits is whole. -/
theorem pack_whole (kind : Kind) (id : UInt32) (target : Option UInt8) {data : Bytes}
    (hpos : 0 < data.length) (hfits : data.length ≤ maxSize) :
    (pack kind id target data).Whole := by
  have hmax : maxSize = 2048 := rfl
  have hlength : (pack kind id target data).slots.length = (data.length + 127) / 128 :=
    length_slots_pack kind id target data
  have hpackets : (UInt16.ofNat (packetsFor data.length)).toNat = (data.length + 127) / 128 := by
    rw [UInt16.toNat_ofNat', packetsFor]
    omega
  have htotal : (UInt32.ofNat data.length).toNat = data.length := by
    rw [UInt32.toNat_ofNat']
    omega
  have hroom : maxDataPackets = 16 := rfl
  refine ⟨by omega, by omega, hpackets.trans hlength.symm, ?_, ?_, ?_⟩
  · show (if (UInt32.ofNat data.length).toNat > maxSize
        ∨ (UInt16.ofNat (packetsFor data.length)).toNat > maxDataPackets then _
      else if (UInt16.ofNat (packetsFor data.length)).toNat
        ≠ packetsFor (UInt32.ofNat data.length).toNat then _ else _) = _
    rw [hpackets, htotal, if_neg (by omega), if_neg (by rw [packetsFor]; omega)]
  · intro i hi
    rw [data_pack kind id target hfits]
    show ((data.pieces 128).map some)[i]? = _
    rw [List.getElem?_map, Bytes.getElem?_pieces data]
    · rfl
    · rw [hlength] at hi
      rw [Bytes.length_pieces (by decide)]
      exact hi
  · rw [data_pack kind id target hfits]
    rfl

theorem Whole.packetCount_eq {datagram : Datagram} (h : datagram.Whole) :
    datagram.packetCount = datagram.slots.length + 1 := by
  rw [packetCount, h.packets_eq]

/-- Packets are read back from their frames. -/
theorem ofFrame_packetAt (datagram : Datagram) (sequence : Nat) :
    Packet.ofFrame (datagram.packetAt sequence).toFrame = .ok (datagram.packetAt sequence) := by
  apply Packet.ofFrame_toFrame
  rw [packetAt]
  by_cases h : sequence = 0
  · rw [if_pos h]
    exact Packet.length_sealed_carrying_le _ _
  · rw [if_neg h]
    exact Packet.length_sealed_carrying_le _ _

/-- Frames of a datagram, by their sequence numbers. -/
def framesAt (datagram : Datagram) (order : List Nat) : List Bytes :=
  order.map fun sequence => (datagram.packetAt sequence).toFrame

theorem payloadCrc_packetAt (datagram : Datagram) (sequence : Nat) :
    (datagram.packetAt sequence).payloadCrc = (datagram.packetAt sequence).crc := by
  rw [packetAt]
  by_cases h : sequence = 0
  · rw [if_pos h]
    rfl
  · rw [if_neg h]
    rfl

/-- Part `i` of the data travels in packet `i + 1`. -/
theorem used_dataPacket (datagram : Datagram) (i : Nat) :
    (datagram.dataPacket (i + 1)).used = (datagram.data.drop (i * 128)).take 128 :=
  Packet.used_sealed_carrying _ (by rw [List.length_take]; exact Nat.min_le_left _ _)

theorem used_headerPacket (datagram : Datagram) :
    datagram.headerPacket.used = datagram.header.encode :=
  Packet.used_sealed_carrying _ (by rw [Header.length_encode]; decide)

/-! ## Parts of a datagram -/

/-- A datagram under way of which every slot that is filled is filled as in `whole`. -/
structure PartOf (part whole : Datagram) : Prop where
  header_eq : part.header = whole.header
  length_eq : part.slots.length = whole.slots.length
  slot : ∀ i < whole.slots.length,
    part.slots[i]? = some none ∨ part.slots[i]? = whole.slots[i]?

/-- A part of which no slot is empty is the whole. -/
theorem PartOf.eq_of_complete {part whole : Datagram} (h : part.PartOf whole)
    (hcomplete : part.slots.all Option.isSome = true) : part = whole := by
  obtain ⟨header, slots⟩ := part
  obtain ⟨header', slots'⟩ := whole
  have hheader : header = header' := h.header_eq
  have hslots : slots = slots' := by
    apply List.ext_getElem?
    intro i
    by_cases hi : i < slots'.length
    · rcases h.slot i hi with hnone | heq
      · have hmem := List.mem_of_getElem? hnone
        exact absurd (List.all_eq_true.1 hcomplete _ hmem) (by decide)
      · exact heq
    · have hlength : slots.length = slots'.length := h.length_eq
      rw [List.getElem?_eq_none (by omega), List.getElem?_eq_none (by omega)]
  rw [hheader, hslots]

theorem awaiting_partOf {whole : Datagram} (h : whole.Whole) :
    (awaiting whole.header).PartOf whole := by
  have hlength : (awaiting whole.header).slots.length = whole.slots.length := by
    show (List.replicate whole.header.packets.toNat none).length = _
    rw [List.length_replicate, h.packets_eq]
  refine ⟨rfl, hlength, ?_⟩
  intro i hi
  left
  show (List.replicate whole.header.packets.toNat none)[i]? = some none
  rw [List.getElem?_replicate, if_pos (by rw [h.packets_eq]; exact hi)]

theorem awaiting_not_complete {whole : Datagram} (h : whole.Whole) :
    (awaiting whole.header).slots.all Option.isSome = false := by
  show (List.replicate whole.header.packets.toNat none).all Option.isSome = false
  rw [List.all_eq_false]
  refine ⟨none, List.mem_replicate.2 ⟨?_, rfl⟩, by decide⟩
  have hpos := h.pos
  rw [h.packets_eq]
  omega

/-- Filling a slot as in the whole gives a part again. -/
theorem PartOf.set {part whole : Datagram} (h : part.PartOf whole) {i : Nat} {bytes : Bytes}
    (hi : i < whole.slots.length) (hslot : whole.slots[i]? = some (some bytes)) :
    PartOf { part with slots := part.slots.set i (some bytes) } whole := by
  have hlength : part.slots.length = whole.slots.length := h.length_eq
  refine ⟨h.header_eq, by rw [List.length_set]; exact hlength, ?_⟩
  intro j hj
  by_cases heq : i = j
  · subst heq
    right
    rw [List.getElem?_set_self (by omega), hslot]
  · rw [List.getElem?_set_ne heq]
    exact h.slot j hj

end Datagram

/-! ## One frame of a datagram -/

/-- A frame got as far as the reassembler, and no datagram came of it. -/
def Receipt.Absorbed : Receipt → Prop
  | .refused _ _ => True
  | .accepted _ => True
  | _ => False

/-- A part of a datagram of which something is still to come. -/
structure Datagram.Fragment (part whole : Datagram) : Prop extends part.PartOf whole where
  incomplete : part.slots.all Option.isSome = false

namespace Assembly

variable {whole part : Datagram}

theorem take_packetAt {assembly next : Assembly} {sequence : Nat}
    (hroute : assembly.route? (whole.packetAt sequence) = some (.ok next))
    (hincomplete : next.isComplete = false) :
    assembly.take (whole.packetAt sequence).toFrame
      = (.accepted (whole.packetAt sequence), next) := by
  rw [take, Datagram.ofFrame_packetAt]
  simp only [Datagram.payloadCrc_packetAt, ne_eq, not_true_eq_false, if_false, hroute,
    hincomplete, Bool.not_false, if_true]

theorem take_packetAt_refused {assembly : Assembly} {sequence : Nat} {fault : Fault}
    (hroute : assembly.route? (whole.packetAt sequence) = some (.error fault)) :
    assembly.take (whole.packetAt sequence).toFrame
      = (.refused (whole.packetAt sequence) fault, assembly) := by
  rw [take, Datagram.ofFrame_packetAt]
  simp only [Datagram.payloadCrc_packetAt, ne_eq, not_true_eq_false, if_false, hroute]

theorem take_packetAt_last {assembly : Assembly} {sequence : Nat}
    (hcrc : Crc32.padded whole.data = whole.header.crc)
    (hroute : assembly.route? (whole.packetAt sequence) = some (.ok (some whole)))
    (hcomplete : whole.slots.all Option.isSome = true) :
    assembly.take (whole.packetAt sequence).toFrame
      = (.delivered (whole.packetAt sequence) whole, none) := by
  have hwhole : isComplete (some whole) = true := hcomplete
  have hverify : verify (some whole) = .ok () := by
    rw [verify, hwhole]
    exact if_pos hcrc
  rw [take, Datagram.ofFrame_packetAt]
  simp only [Datagram.payloadCrc_packetAt, ne_eq, not_true_eq_false, if_false, hroute, hwhole,
    Bool.not_true, Bool.false_eq_true, hverify]
  rfl

theorem take_packetAt_spoiled {assembly : Assembly} {next : Datagram} {sequence : Nat}
    (hroute : assembly.route? (whole.packetAt sequence) = some (.ok (some next)))
    (hcomplete : isComplete (some next) = true) (hcrc : Crc32.padded next.data ≠ next.header.crc) :
    assembly.take (whole.packetAt sequence).toFrame
      = (.spoiled (whole.packetAt sequence) next, none) := by
  have hverify : verify (some next) = .error .crcMismatch := by
    rw [verify, hcomplete]
    exact if_neg hcrc
  rw [take, Datagram.ofFrame_packetAt]
  simp only [Datagram.payloadCrc_packetAt, ne_eq, not_true_eq_false, if_false, hroute, hcomplete,
    Bool.not_true, Bool.false_eq_true, hverify]
  rfl

theorem verify_ok {assembly : Assembly} (h : assembly.verify = .ok ()) :
    Crc32.padded assembly.datagram.data = assembly.datagram.header.crc := by
  rw [verify] at h
  split at h
  · cases h
  · split at h
    next hcrc => exact hcrc
    next => cases h

/-- A datagram is delivered only when the packet that completes it and the whole of it match their
checksums, and nothing is under way then. -/
theorem take_delivered {assembly : Assembly} {frame : Bytes} {packet : Packet}
    {datagram : Datagram} (h : (assembly.take frame).1 = .delivered packet datagram) :
    packet.payloadCrc = packet.crc ∧ Crc32.padded datagram.data = datagram.header.crc
      ∧ (assembly.take frame).2 = none := by
  simp only [take] at h ⊢
  split at h
  next => cases h
  next packet' hframe =>
    by_cases hcrc : packet'.payloadCrc ≠ packet'.crc
    · rw [if_pos hcrc] at h
      cases h
    · rw [if_neg hcrc] at h ⊢
      cases hroute : assembly.route? packet' with
      | none =>
        rw [hroute] at h
        cases h
      | some result =>
        cases result with
        | error fault =>
          rw [hroute] at h
          cases h
        | ok next =>
          rw [hroute] at h
          dsimp only at h ⊢
          split at h
          next => cases h
          next hcomplete =>
            rw [if_neg hcomplete]
            cases hverify : next.verify with
            | error fault =>
              rw [hverify] at h
              cases h
            | ok _ =>
              rw [hverify] at h
              cases h
              exact ⟨Decidable.of_not_not hcrc, verify_ok hverify, rfl⟩
/-- A header of the datagram under way changes nothing. -/
theorem route?_header_held {assembly : Assembly} (hheld : assembly.holds whole.header.id = true) :
    assembly.route? (whole.packetAt 0) = some (.ok assembly) := by
  show some (acceptHeader assembly whole.headerPacket) = _
  rw [acceptHeader, Datagram.used_headerPacket, Datagram.Header.decode_encode]
  exact congrArg some (if_pos hheld)

theorem take_header_some (h : part.Fragment whole) :
    take (some part) (whole.packetAt 0).toFrame
      = (.accepted (whole.packetAt 0), some part) := by
  refine take_packetAt (route?_header_held ?_) h.incomplete
  show (part.header.id == whole.header.id) = true
  rw [h.header_eq, beq_self_eq_true]

/-- Unless its datagram is under way, a header that passes its check starts it. -/
theorem route?_header {assembly : Assembly} (hcheck : whole.header.check = .ok ())
    (hother : assembly.holds whole.header.id = false) :
    assembly.route? (whole.packetAt 0) = some (.ok (some (.awaiting whole.header))) := by
  show some (acceptHeader assembly whole.headerPacket) = _
  rw [acceptHeader, Datagram.used_headerPacket, Datagram.Header.decode_encode]
  show some (if assembly.holds whole.header.id = true then .ok assembly else
    whole.header.check >>= fun _ => .ok (some (Datagram.awaiting whole.header))) = _
  rw [hother, hcheck]
  rfl

/-- With nothing under way the header starts its datagram. -/
theorem take_header_none (h : whole.Whole) :
    take none (whole.packetAt 0).toFrame
      = (.accepted (whole.packetAt 0), some (.awaiting whole.header)) :=
  take_packetAt (route?_header h.check_eq rfl) (Datagram.awaiting_not_complete h)

theorem route?_data (whole : Datagram) (assembly : Assembly) (i : Nat) :
    assembly.route? (whole.packetAt (i + 1))
      = some (assembly.acceptData (whole.dataPacket (i + 1))) := by
  rw [Datagram.packetAt, if_neg (Nat.succ_ne_zero i)]
  rfl

/-- Data of a datagram that is not under way is refused. -/
theorem acceptData_other {assembly : Assembly} {packet : Packet}
    (h : assembly.holds packet.id = false) :
    assembly.acceptData packet = .error .internalError := by
  cases assembly with
  | none => rfl
  | some datagram => exact if_pos (Ne.symm (beq_eq_false_iff_ne.1 h))

/-- With nothing under way data is refused. -/
theorem take_data_none (whole : Datagram) (i : Nat) :
    take none (whole.packetAt (i + 1)).toFrame
      = (.refused (whole.packetAt (i + 1)) .internalError, none) :=
  take_packetAt_refused (route?_data whole none i)

/-- What the reassembler makes of a data packet of the datagram under way. -/
theorem acceptData_dataPacket (hid : whole.header.id = part.header.id) {i : Nat} (hi : i < 255) :
    acceptData (some part) (whole.dataPacket (i + 1))
      = match part.slots[i]? with
        | some none => .ok (some { part with
            slots := part.slots.set i (some ((whole.data.drop (i * 128)).take 128)) })
        | _ => .error .internalError := by
  have hsequence : (UInt8.ofNat (i + 1)).toNat = i + 1 := by
    rw [UInt8.toNat_ofNat']
    omega
  have hpos : (whole.dataPacket (i + 1)).sequence ≠ 0 := by
    intro hzero
    rw [show (whole.dataPacket (i + 1)).sequence = UInt8.ofNat (i + 1) from rfl] at hzero
    rw [hzero] at hsequence
    exact absurd hsequence.symm (Nat.succ_ne_zero i)
  have hplace : (whole.dataPacket (i + 1)).sequence.toNat - 1 = i :=
    congrArg (· - 1) hsequence
  have hused := Datagram.used_dataPacket whole i
  rw [acceptData, if_neg (fun hne => hne hid), if_neg hpos, hplace]
  cases part.slots[i]? with
  | none => rfl
  | some slot =>
    cases slot with
    | none => exact congrArg (fun carried => Except.ok (some { part with
        slots := part.slots.set i (some carried) })) hused
    | some carried => rfl

/-- Data of the datagram under way is refused if its slot is filled, or if there is none for it. -/
theorem take_data_refused (hid : whole.header.id = part.header.id) {i : Nat} (hi : i < 255)
    (hfilled : part.slots[i]? ≠ some none) :
    take (some part) (whole.packetAt (i + 1)).toFrame
      = (.refused (whole.packetAt (i + 1)) .internalError, some part) := by
  refine take_packetAt_refused ?_
  rw [route?_data, acceptData_dataPacket hid hi]
  split
  next heq => exact absurd heq hfilled
  next => rfl

/-- A data packet whose slot is filled is refused. -/
theorem take_data_filled (h : whole.Whole) (hpart : part.PartOf whole) {i : Nat}
    (hi : i < whole.slots.length) (hfilled : part.slots[i]? ≠ some none) :
    take (some part) (whole.packetAt (i + 1)).toFrame
      = (.refused (whole.packetAt (i + 1)) .internalError, some part) := by
  have hroom := h.room
  have hmax : Datagram.maxDataPackets = 16 := rfl
  exact take_data_refused (by rw [hpart.header_eq]) (by omega) hfilled

/-- What is under way once a data packet has filled its slot; when no slot is left empty, that is
the datagram, and it is delivered. -/
theorem take_data_fill (h : whole.Whole) (hpart : part.PartOf whole) {i : Nat}
    (hi : i < whole.slots.length) (hempty : part.slots[i]? = some none) {next : Datagram}
    (hnext : next = { part with
      slots := part.slots.set i (some ((whole.data.drop (i * 128)).take 128)) }) :
    next.PartOf whole
      ∧ take (some part) (whole.packetAt (i + 1)).toFrame
        = if next.slots.all Option.isSome then (.delivered (whole.packetAt (i + 1)) whole, none)
          else (.accepted (whole.packetAt (i + 1)), some next) := by
  have hroom := h.room
  have hmax : Datagram.maxDataPackets = 16 := rfl
  have hset := hpart.set hi (h.slot_eq i hi)
  have hroute := route?_data whole (some part) i
  rw [acceptData_dataPacket (by rw [hpart.header_eq]) (by omega), hempty] at hroute
  simp only [← hnext] at hset hroute
  refine ⟨hset, ?_⟩
  cases hcomplete : next.slots.all Option.isSome with
  | false => exact take_packetAt hroute hcomplete
  | true =>
    -- A part without empty slots is the datagram itself.
    have hwhole := hset.eq_of_complete hcomplete
    rw [hwhole] at hroute hcomplete
    exact take_packetAt_last h.crc_eq hroute hcomplete

/-- A data packet fills its slot, and the one that fills the last slot delivers the datagram. -/
theorem take_data_empty (h : whole.Whole) (hpart : part.PartOf whole) {i : Nat}
    (hi : i < whole.slots.length) (hempty : part.slots[i]? = some none) :
    (∃ next : Datagram, next.Fragment whole
        ∧ (∀ j, part.slots[j]? ≠ some none ∨ j = i → next.slots[j]? ≠ some none)
        ∧ take (some part) (whole.packetAt (i + 1)).toFrame
          = (.accepted (whole.packetAt (i + 1)), some next))
      ∨ take (some part) (whole.packetAt (i + 1)).toFrame
          = (.delivered (whole.packetAt (i + 1)) whole, none) := by
  have hlength : part.slots.length = whole.slots.length := hpart.length_eq
  obtain ⟨next, hnext⟩ : ∃ next : Datagram, next = { part with
      slots := part.slots.set i (some ((whole.data.drop (i * 128)).take 128)) } := ⟨_, rfl⟩
  obtain ⟨hset, htake⟩ := take_data_fill h hpart hi hempty hnext
  cases hcomplete : next.slots.all Option.isSome with
  | true =>
    rw [hcomplete] at htake
    exact .inr htake
  | false =>
    rw [hcomplete] at htake
    refine .inl ⟨next, ⟨hset, hcomplete⟩, ?_, htake⟩
    intro j hj
    rw [hnext]
    by_cases heq : i = j
    · subst heq
      rw [List.getElem?_set_self (by omega)]
      simp
    · rw [List.getElem?_set_ne heq]
      exact hj.resolve_right (Ne.symm heq)

/-! ## Many frames -/

/-- Frames are taken one after the other. Whether `whole` came of them is noted; it did not come
twice, and nothing else did. -/
inductive Takes (whole : Datagram) : Assembly → List Bytes → Bool → Assembly → Prop
  | nil (assembly : Assembly) : Takes whole assembly [] false assembly
  | absorbed {assembly next last : Assembly} {receipt : Receipt} {frame : Bytes}
      {frames : List Bytes} {delivered : Bool} (take_eq : assembly.take frame = (receipt, next))
      (absorbed : receipt.Absorbed) (rest : Takes whole next frames delivered last) :
      Takes whole assembly (frame :: frames) delivered last
  | delivered {assembly last : Assembly} {packet : Packet} {frame : Bytes} {frames : List Bytes}
      (take_eq : assembly.take frame = (.delivered packet whole, none))
      (rest : Takes whole none frames false last) :
      Takes whole assembly (frame :: frames) true last

/-- Nothing is under way, or a part of `whole`. -/
def Partial (whole : Datagram) (assembly : Assembly) : Prop :=
  assembly = none ∨ ∃ part : Datagram, assembly = some part ∧ part.Fragment whole

theorem takes_data_none (whole : Datagram) {order : List Nat} (hpos : ∀ n ∈ order, 0 < n) :
    Takes whole none (whole.framesAt order) false none := by
  induction order with
  | nil => exact .nil none
  | cons n order ih =>
    obtain ⟨i, rfl⟩ := Nat.exists_eq_succ_of_ne_zero (Nat.ne_of_gt (hpos n List.mem_cons_self))
    exact .absorbed (take_data_none whole i) trivial
      (ih fun n hmem => hpos n (List.mem_cons_of_mem _ hmem))

/-- Data of the datagram under way fills slots until the datagram is delivered. -/
theorem takes_data (h : whole.Whole) {order : List Nat}
    (horder : ∀ n ∈ order, 0 < n ∧ n ≤ whole.slots.length) (hpart : part.Fragment whole) :
    Takes whole (some part) (whole.framesAt order) true none
      ∨ ∃ next : Datagram, next.Fragment whole
        ∧ (∀ i, part.slots[i]? ≠ some none ∨ i + 1 ∈ order → next.slots[i]? ≠ some none)
        ∧ Takes whole (some part) (whole.framesAt order) false (some next) := by
  induction order generalizing part with
  | nil => exact .inr ⟨part, hpart, fun i hi => hi.resolve_right List.not_mem_nil, .nil _⟩
  | cons n order ih =>
    have hn := horder n List.mem_cons_self
    have htail := fun n hmem => horder n (List.mem_cons_of_mem _ hmem)
    obtain ⟨i, rfl⟩ := Nat.exists_eq_succ_of_ne_zero (Nat.ne_of_gt hn.1)
    by_cases hslot : part.slots[i]? = some none
    · -- The slot is empty: the data fills it, and that may complete the datagram.
      rcases take_data_empty h hpart.toPartOf hn.2 hslot with ⟨mid, hmid, hfilled, htake⟩ | htake
      · rcases ih htail hmid with htakes | ⟨next, hnext, hkept, htakes⟩
        · exact .inl (.absorbed htake trivial htakes)
        · refine .inr ⟨next, hnext, ?_, .absorbed htake trivial htakes⟩
          intro j hj
          apply hkept
          rcases hj with hj | hj
          · exact .inl (hfilled j (.inl hj))
          rcases List.mem_cons.1 hj with heq | hj
          · exact .inl (hfilled j (.inr (Nat.succ.inj heq)))
          · exact .inr hj
      · exact .inl (.delivered htake (takes_data_none whole fun n hmem => (htail n hmem).1))
    · -- The slot is filled from an earlier transmission: the data is refused.
      have htake := take_data_filled h hpart.toPartOf hn.2 hslot
      rcases ih htail hpart with htakes | ⟨next, hnext, hkept, htakes⟩
      · exact .inl (.absorbed htake trivial htakes)
      · refine .inr ⟨next, hnext, ?_, .absorbed htake trivial htakes⟩
        intro j hj
        apply hkept
        rcases hj with hj | hj
        · exact .inl hj
        rcases List.mem_cons.1 hj with heq | hj
        · rw [Nat.succ.inj heq]
          exact .inl hslot
        · exact .inr hj

/-- A part is complete once all data has come. -/
theorem exists_empty (hpart : part.Fragment whole) :
    ∃ i < whole.slots.length, part.slots[i]? = some none := by
  obtain ⟨slot, hmem, hslot⟩ := List.all_eq_false.1 hpart.incomplete
  obtain ⟨i, hi, rfl⟩ := List.getElem_of_mem hmem
  have hlength : part.slots.length = whole.slots.length := hpart.length_eq
  refine ⟨i, by omega, ?_⟩
  rw [List.getElem?_eq_getElem hi]
  exact congrArg some (Option.not_isSome_iff_eq_none.1 hslot)

/-- Any of the frames of a datagram, in order, leave nothing under way but a part of it, and
nothing once it is delivered. All of them deliver it. -/
theorem takes_frames (h : whole.Whole) {assembly : Assembly} (hpartial : assembly.Partial whole)
    {order : List Nat} (hsorted : order.Pairwise (· < ·))
    (horder : ∀ n ∈ order, n ≤ whole.slots.length) :
    ∃ delivered last, Takes whole assembly (whole.framesAt order) delivered last
      ∧ last.Partial whole ∧ (delivered = true → last = none)
      ∧ ((∀ n ≤ whole.slots.length, n ∈ order) → delivered = true) := by
  -- What data does to a part under way, header or no header in front of it.
  have hdata : ∀ {order : List Nat} {part : Datagram},
      (∀ n ∈ order, 0 < n ∧ n ≤ whole.slots.length) → part.Fragment whole →
      ∃ delivered last, Takes whole (some part) (whole.framesAt order) delivered last
        ∧ last.Partial whole ∧ (delivered = true → last = none)
        ∧ ((∀ n, 0 < n → n ≤ whole.slots.length → n ∈ order) → delivered = true) := by
    intro order part horder hpart
    rcases takes_data h horder hpart with htakes | ⟨next, hnext, hfilled, htakes⟩
    · exact ⟨true, none, htakes, .inl rfl, fun _ => rfl, fun _ => rfl⟩
    · refine ⟨false, some next, htakes, .inr ⟨next, rfl, hnext⟩, nofun, ?_⟩
      intro hall
      obtain ⟨i, hi, hempty⟩ := exists_empty hnext
      exact absurd hempty (hfilled i (.inr (hall (i + 1) (Nat.succ_pos i) hi)))
  cases order with
  | nil =>
    refine ⟨false, assembly, .nil assembly, hpartial, nofun, ?_⟩
    intro hall
    exact absurd (hall 0 (Nat.zero_le _)) List.not_mem_nil
  | cons n order =>
    obtain ⟨hbelow, hsorted⟩ := List.pairwise_cons.1 hsorted
    have htail : ∀ m ∈ order, 0 < m ∧ m ≤ whole.slots.length := fun m hmem =>
      ⟨Nat.lt_of_le_of_lt (Nat.zero_le n) (hbelow m hmem), horder m (List.mem_cons_of_mem _ hmem)⟩
    rcases Nat.eq_zero_or_pos n with rfl | hpos
    · -- The header comes first; it starts the datagram unless a part of it is under way.
      obtain ⟨part, hpart, htake⟩ : ∃ part : Datagram, part.Fragment whole
          ∧ assembly.take (whole.packetAt 0).toFrame
            = (.accepted (whole.packetAt 0), some part) := by
        rcases hpartial with rfl | ⟨part, rfl, hpart⟩
        · exact ⟨_, ⟨Datagram.awaiting_partOf h, Datagram.awaiting_not_complete h⟩,
            take_header_none h⟩
        · exact ⟨part, hpart, take_header_some hpart⟩
      obtain ⟨delivered, last, htakes, hlast, hnone, hall⟩ := hdata htail hpart
      refine ⟨delivered, last, .absorbed htake trivial htakes, hlast, hnone, ?_⟩
      intro hmem
      apply hall
      intro m hpos hle
      exact (List.mem_cons.1 (hmem m hle)).resolve_left (Nat.ne_of_gt hpos)
    · -- The header is lost. Without a part under way all data is refused.
      have hpositive : ∀ m ∈ n :: order, 0 < m ∧ m ≤ whole.slots.length := by
        intro m hmem
        rcases List.mem_cons.1 hmem with rfl | hmem'
        · exact ⟨hpos, horder m hmem⟩
        · exact htail m hmem'
      have hmissing : ¬∀ m ≤ whole.slots.length, m ∈ n :: order := fun hall =>
        absurd (hpositive 0 (hall 0 (Nat.zero_le _))).1 (Nat.lt_irrefl 0)
      rcases hpartial with rfl | ⟨part, rfl, hpart⟩
      · exact ⟨false, none, takes_data_none whole fun m hmem => (hpositive m hmem).1, .inl rfl,
          nofun, fun hall => absurd hall hmissing⟩
      · obtain ⟨delivered, last, htakes, hlast, hnone, -⟩ := hdata hpositive hpart
        exact ⟨delivered, last, htakes, hlast, hnone, fun hall => absurd hall hmissing⟩

/-- Data that is all there is of a datagram delivers it. -/
theorem take_data_only (h : whole.Whole) (hone : whole.slots.length = 1)
    (hpart : part.Fragment whole) :
    take (some part) (whole.packetAt 1).toFrame
      = (.delivered (whole.packetAt 1) whole, none) := by
  obtain ⟨i, hi, hempty⟩ := exists_empty hpart
  obtain rfl : i = 0 := by omega
  rcases take_data_empty h hpart.toPartOf hi hempty with ⟨next, hnext, hfilled, -⟩ | htake
  · obtain ⟨j, hj, hempty'⟩ := exists_empty hnext
    obtain rfl : j = 0 := by omega
    exact absurd hempty' (hfilled 0 (.inr rfl))
  · exact htake

/-- Of a datagram of a single data packet the header is accepted, and the data delivers it. -/
theorem take_pair (h : whole.Whole) (hone : whole.slots.length = 1) :
    ∃ part : Datagram,
      take none (whole.packetAt 0).toFrame
        = (.accepted (whole.packetAt 0), some part)
      ∧ take (some part) (whole.packetAt 1).toFrame
        = (.delivered (whole.packetAt 1) whole, none) :=
  ⟨_, take_header_none h,
    take_data_only h hone ⟨Datagram.awaiting_partOf h, Datagram.awaiting_not_complete h⟩⟩

end Assembly

/-! ## Answers -/

namespace Datagram

/-- The answer to a datagram that was handled with this result. -/
def answer (datagram : Datagram) (result : Except Fault Unit) : Datagram :=
  (Acknowledgement.ofResult datagram.kind datagram.id result).toDatagram none

theorem frames_eq (datagram : Datagram) :
    datagram.frames = datagram.framesAt (List.range datagram.packetCount) := by
  rw [frames, packets, framesAt, List.map_map]
  rfl

theorem length_flatten_framesAt (datagram : Datagram) (order : List Nat) :
    (datagram.framesAt order).flatten.length = order.length * Packet.frameSize := by
  induction order with
  | nil => rfl
  | cons n order ih =>
    show ((datagram.packetAt n).toFrame ++ (datagram.framesAt order).flatten).length = _
    rw [List.length_append, ih, Packet.length_toFrame, List.length_cons, Nat.succ_mul,
      Nat.add_comm]

theorem length_flatten_frames (datagram : Datagram) :
    datagram.frames.flatten.length = datagram.packetCount * Packet.frameSize := by
  rw [frames_eq, length_flatten_framesAt, List.length_range]

/-- An answer takes two frames. -/
theorem packetCount_answer (datagram : Datagram) (result : Except Fault Unit) :
    (datagram.answer result).packetCount = 2 := by
  show (UInt16.ofNat (packetsFor (Acknowledgement.encode _).length)).toNat + 1 = 2
  rw [Acknowledgement.length_encode]
  rfl

/-- An acknowledgement travels in one data packet. -/
theorem acknowledgement_whole (ack : Acknowledgement) (target : Option UInt8) :
    (ack.toDatagram target).Whole ∧ (ack.toDatagram target).slots.length = 1 := by
  have hlength := ack.length_encode
  refine ⟨pack_whole _ _ _ (by rw [hlength]; decide) (by rw [hlength]; decide), ?_⟩
  rw [Acknowledgement.toDatagram, length_slots_pack, hlength]
  rfl

theorem answer_whole (datagram : Datagram) (result : Except Fault Unit) :
    (datagram.answer result).Whole :=
  (acknowledgement_whole _ none).1

theorem length_slots_answer (datagram : Datagram) (result : Except Fault Unit) :
    (datagram.answer result).slots.length = 1 :=
  (acknowledgement_whole _ none).2

/-- The frames of a datagram of a single data packet. -/
theorem flatten_frames_pair {whole : Datagram} (h : whole.Whole) (hone : whole.slots.length = 1) :
    whole.frames.flatten
      = (whole.packetAt 0).toFrame ++ ((whole.packetAt 1).toFrame ++ []) := by
  rw [frames_eq, h.packetCount_eq, hone]
  rfl

theorem flatten_frames_answer (datagram : Datagram) (result : Except Fault Unit) :
    (datagram.answer result).frames.flatten = ((datagram.answer result).packetAt 0).toFrame
      ++ (((datagram.answer result).packetAt 1).toFrame ++ []) :=
  flatten_frames_pair (datagram.answer_whole result) (datagram.length_slots_answer result)

theorem length_flatten_frames_answer (datagram : Datagram) (result : Except Fault Unit) :
    (datagram.answer result).frames.flatten.length = 2 * Packet.frameSize := by
  rw [length_flatten_frames, packetCount_answer]

end Datagram

namespace Assembly

/-- All frames of a datagram deliver it, if nothing is under way but a part of it. -/
theorem takes_all {whole : Datagram} {assembly : Assembly} (h : whole.Whole)
    (hpartial : assembly.Partial whole) :
    Takes whole assembly whole.frames true none := by
  have hcount := h.packetCount_eq
  obtain ⟨delivered, last, htakes, -, hnone, hall⟩ := takes_frames h hpartial
    (List.pairwise_lt_range : (List.range whole.packetCount).Pairwise _)
    fun n hmem => by have := List.mem_range.1 hmem; omega
  obtain rfl : delivered = true := hall fun n hle => List.mem_range.2 (by omega)
  rw [hnone rfl, ← Datagram.frames_eq] at htakes
  exact htakes

end Assembly

end Reflash
