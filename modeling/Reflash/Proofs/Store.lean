/-
  Reflash.Proofs.Store

  A datagram in memory against the datagram under way. The header, the bytes, the table
  and the number that a `Store` keeps side by side always say the same: they are those of
  one `Assembly`, slot by slot, whatever packets come. So every step has a result, and
  what is in is told by the packets that were taken since the header.
-/
import Reflash.Datagram.Store
import Reflash.Proofs.Formats
import Reflash.Proofs.Intake
import Reflash.Proofs.Reassembly

namespace Reflash

/-! ## Bytes -/

namespace Bytes

theorem byteAt_of_le {bytes : Bytes} {k : Nat} (h : bytes.length ≤ k) : bytes.byteAt k = 0 := by
  rw [byteAt, List.getD_eq_getElem?_getD, List.getElem?_eq_none h]
  rfl

theorem byteAt_eq_getElem {bytes : Bytes} {k : Nat} (h : k < bytes.length) :
    bytes.byteAt k = bytes[k] := by
  rw [byteAt, List.getD_eq_getElem?_getD, List.getElem?_eq_getElem h, Option.getD_some]

theorem byteAt_drop (bytes : Bytes) (n k : Nat) :
    byteAt (bytes.drop n) k = bytes.byteAt (n + k) := by
  rw [byteAt, byteAt, List.getD_eq_getElem?_getD, List.getD_eq_getElem?_getD, List.getElem?_drop]

/-- Filling up with zeros changes no byte. -/
theorem byteAt_padTo {bytes : Bytes} {n k : Nat} (h : k < n) :
    byteAt (padTo n bytes) k = bytes.byteAt k := by
  by_cases hk : k < bytes.length
  · have hfront : k < (bytes.take n).length := by
      rw [List.length_take]
      omega
    rw [padTo, byteAt, List.getD_eq_getElem?_getD, List.getElem?_append_left hfront,
      ← List.getD_eq_getElem?_getD]
    exact byteAt_take h
  · rw [byteAt_of_le (by omega : bytes.length ≤ k), padTo, byteAt, List.getD_eq_getElem?_getD,
      List.getElem?_append_right (by rw [List.length_take]; omega), List.getElem?_replicate]
    split <;> rfl

theorem slice?_eq {bytes : Bytes} {first last : Nat} (hle : first ≤ last)
    (hfits : last ≤ bytes.length) :
    bytes.slice? first last = some ((bytes.take last).drop first) :=
  if_pos ⟨hle, hfits⟩

end Bytes

/-! ## What a datagram is in memory -/

namespace Datagram

theorem packetsFor_le {n : Nat} (h : n ≤ 2048) : packetsFor n ≤ 16 := by
  rw [packetsFor]
  omega

/-- What slot `i` has received, if it is filled. -/
def filled (datagram : Datagram) (i : Nat) : Option Bytes :=
  (datagram.slots[i]?).join

/-- The slots one after the other, and zeros behind them. -/
def buffer (datagram : Datagram) : Vector UInt8 2048 :=
  Vector.ofFn fun i => (slotBytes (datagram.filled (i.val / 128))).byteAt (i.val % 128)

/-- Which packets are in. -/
def marks (datagram : Datagram) : Vector Bool 17 :=
  Vector.ofFn fun s => decide (s.val = 0) || (datagram.filled (s.val - 1)).isSome

theorem byteAt_slotBytes_none (k : Nat) : (slotBytes none).byteAt k = 0 := by
  rw [slotBytes, Option.getD_none, Bytes.padTo, List.take_nil, List.nil_append, Bytes.byteAt,
    List.getD_eq_getElem?_getD, List.getElem?_replicate]
  split <;> rfl

theorem byteAt_slotBytes_some {bytes : Bytes} {k : Nat} (h : k < 128) :
    (slotBytes (some bytes)).byteAt k = bytes.byteAt k :=
  Bytes.byteAt_padTo h

theorem filled_of_le {datagram : Datagram} {i : Nat} (h : datagram.slots.length ≤ i) :
    datagram.filled i = none := by
  rw [filled, List.getElem?_eq_none h]
  rfl

theorem filled_awaiting (header : Header) (i : Nat) : (awaiting header).filled i = none := by
  show ((List.replicate header.packets.toNat none)[i]?).join = none
  rw [List.getElem?_replicate]
  split <;> rfl

theorem filled_pack (kind : Kind) (id : UInt32) (target : Option UInt8) (data : Bytes) (i : Nat) :
    (pack kind id target data).filled i
      = if i < packetsFor data.length then some ((data.drop (i * 128)).take 128) else none := by
  have hlength : (data.pieces 128).length = packetsFor data.length :=
    Bytes.length_pieces (by decide) data
  show (((data.pieces 128).map some)[i]?).join = _
  rw [List.getElem?_map]
  by_cases hi : i < packetsFor data.length
  · rw [if_pos hi, Bytes.getElem?_pieces data (by rw [hlength]; exact hi)]
    rfl
  · rw [if_neg hi, List.getElem?_eq_none (by omega)]
    rfl

/-- A datagram with one more slot filled. -/
def fill (part : Datagram) (i : Nat) (bytes : Bytes) : Datagram :=
  { part with slots := part.slots.set i (some bytes) }

theorem filled_fill {part : Datagram} {i : Nat} (hi : i < part.slots.length) (bytes : Bytes)
    (j : Nat) : (part.fill i bytes).filled j = if j = i then some bytes else part.filled j := by
  show ((part.slots.set i (some bytes))[j]?).join = _
  by_cases hj : j = i
  · rw [hj, List.getElem?_set_self hi, if_pos rfl]
    rfl
  · rw [List.getElem?_set_ne (Ne.symm hj), if_neg hj]
    rfl

end Datagram

namespace Store

/-- The datagram under way, as it lies in memory. -/
def of : Assembly → Store
  | none => blank
  | some datagram => {
      header := datagram.header
      data := datagram.buffer
      received := datagram.marks
      count := .ofNat datagram.received
      underWay := true }

theorem of_awaiting (header : Datagram.Header) :
    of (some (.awaiting header)) = announced header := by
  have hdata : (Datagram.awaiting header).buffer = blank.data := by
    apply Vector.ext
    intro i hi
    rw [Datagram.buffer, Vector.getElem_ofFn, Datagram.filled_awaiting,
      Datagram.byteAt_slotBytes_none]
    exact (Vector.getElem_replicate hi).symm
  have hreceived : (Datagram.awaiting header).marks = blank.received.set 0 true := by
    apply Vector.ext
    intro s hs
    have hblank : blank.received[s] = false := Vector.getElem_replicate hs
    rw [Datagram.marks, Vector.getElem_ofFn, Datagram.filled_awaiting, Vector.getElem_set, hblank]
    by_cases hzero : s = 0
    · simp [hzero]
    · simp [hzero, Ne.symm hzero]
  have hcount : (Datagram.awaiting header).received = 0 := by
    show List.countP Option.isSome (List.replicate _ none) = 0
    rw [List.countP_replicate]
    rfl
  rw [of, hdata, hreceived, hcount]
  rfl

/-! ## Building -/

theorem place?_eq {data : Vector UInt8 2048} {offset : Nat} {bytes : Bytes}
    (h : offset + bytes.length ≤ 2048) : place? data offset bytes
      = some (Vector.ofFn fun i => if offset ≤ i.val ∧ i.val < offset + bytes.length
        then bytes.byteAt (i.val - offset) else data[i]) :=
  if_pos h

/-- The payload fills the slots in order, as the last one to be filled ends with it. -/
theorem place?_pack (kind : Datagram.Kind) (id : UInt32) (target : Option UInt8) {data : Bytes}
    (hfits : data.length ≤ 2048) :
    place? blank.data 0 data = some (Datagram.pack kind id target data).buffer := by
  rw [place?_eq (by omega)]
  refine congrArg some (Vector.ext fun i hi => ?_)
  have hblank : blank.data[i] = 0 := Vector.getElem_replicate hi
  -- Past the last slot there are zeros on either side.
  have hbyte : data.byteAt i = (Datagram.slotBytes (if i / 128 < Datagram.packetsFor data.length
      then some ((data.drop (i / 128 * 128)).take 128) else none)).byteAt (i % 128) := by
    by_cases hslot : i / 128 < Datagram.packetsFor data.length
    · rw [if_pos hslot, Datagram.byteAt_slotBytes_some (Nat.mod_lt _ (by decide)),
        Bytes.byteAt_take (Nat.mod_lt _ (by decide)), Bytes.byteAt_drop, Nat.div_add_mod']
    · rw [if_neg hslot, Datagram.byteAt_slotBytes_none]
      rw [Datagram.packetsFor] at hslot
      exact Bytes.byteAt_of_le (by omega)
  rw [Vector.getElem_ofFn, Datagram.buffer, Vector.getElem_ofFn, Datagram.filled_pack, ← hbyte]
  simp only [Fin.getElem_fin, hblank, Nat.sub_zero, Nat.zero_add, Nat.zero_le, true_and]
  split
  · rfl
  next hbehind => exact (Bytes.byteAt_of_le (Nat.not_lt.1 hbehind)).symm

theorem markUpTo?_pack (kind : Datagram.Kind) (id : UInt32) (target : Option UInt8) {data : Bytes}
    (hfits : data.length ≤ 2048) :
    markUpTo? blank.received (Datagram.packetsFor data.length)
      = some (Datagram.pack kind id target data).marks := by
  have hpieces := Datagram.packetsFor_le hfits
  rw [markUpTo?, if_pos (by omega)]
  refine congrArg some (Vector.ext fun s hs => ?_)
  have hblank : blank.received[s] = false := Vector.getElem_replicate hs
  rw [Vector.getElem_ofFn, Datagram.marks, Vector.getElem_ofFn, Datagram.filled_pack]
  simp only [Fin.getElem_fin, hblank, Bool.or_false]
  by_cases hslot : s - 1 < Datagram.packetsFor data.length
  · rw [if_pos hslot]
    simp
    omega
  · rw [if_neg hslot]
    simp
    omega

/-- Composing a datagram is packing it. -/
theorem compose_eq (kind : Datagram.Kind) (id : UInt32) (data : Bytes) :
    compose kind id data = some (if data.length > Datagram.maxSize then .error .invalidArgs
      else .ok (of (some (.pack kind id none data)))) := by
  rw [compose]
  by_cases hlarge : data.length > Datagram.maxSize
  · rw [if_pos hlarge, if_pos hlarge]
  have hfits : data.length ≤ 2048 := Nat.not_lt.1 hlarge
  have hcount : (Datagram.pack kind id none data).received = Datagram.packetsFor data.length := by
    show ((data.pieces 128).map some).countP Option.isSome = _
    rw [List.countP_eq_length.2 (by simp), List.length_map, Bytes.length_pieces (by decide)]
    rfl
  rw [if_neg hlarge, if_neg hlarge, place?_pack kind id none hfits,
    markUpTo?_pack kind id none hfits, of, hcount]
  rfl

/-! ## Packets -/

theorem length_used_le (packet : Packet) : packet.used.length ≤ 128 := by
  rw [Packet.used, List.length_take, packet.payload_length]
  exact Nat.min_le_right _ _

theorem used?_eq (packet : Packet) : used? packet = some packet.used := by
  have hsize : Packet.payloadSize = 128 := rfl
  rw [used?, Bytes.slice?_eq (Nat.zero_le _) (by rw [packet.payload_length]; omega), Packet.used,
    List.drop_zero, List.take_eq_take_min (i := packet.length.toNat), packet.payload_length, hsize]

theorem decode?_eq (bytes : Bytes) : decode? bytes = some (Datagram.Header.decode bytes) := by
  rw [decode?]
  by_cases hshort : bytes.length < Datagram.Header.size
  · rw [if_pos hshort, Datagram.Header.decode, if_pos hshort]
  · rw [if_neg hshort, Bytes.slice?_eq (Nat.zero_le _) (by omega), Option.map_some, List.drop_zero,
      Datagram.Header.decode_take (by omega)]

end Store

namespace Assembly

variable {assembly : Assembly} {part : Datagram} {packet : Packet}

/-- What a header packet comes to. -/
theorem acceptHeader_eq (assembly : Assembly) (packet : Packet) :
    assembly.acceptHeader packet = match Datagram.Header.decode packet.used with
      | .error fault => .error fault
      | .ok header =>
        if assembly.holds header.id then .ok assembly
        else match header.check with
          | .error fault => .error fault
          | .ok () => .ok (some (.awaiting header)) := by
  rw [acceptHeader]
  cases Datagram.Header.decode packet.used with
  | error fault => rfl
  | ok header =>
    show (if assembly.holds header.id = true then _ else _) = _
    dsimp only
    split
    · rfl
    · cases header.check <;> rfl

/-- What a data packet comes to where a datagram is under way. -/
theorem acceptData_eq (hfit : part.slots.length = part.header.packets.toNat) :
    acceptData (some part) packet =
      if packet.id ≠ part.header.id then .error .internalError
      else if packet.sequence.toNat = 0 ∨ packet.sequence.toNat > part.header.packets.toNat then
        .error .internalError
      else if part.filled (packet.sequence.toNat - 1) = none then
        .ok (some (part.fill (packet.sequence.toNat - 1) packet.used))
      else .error .internalError := by
  have hzero : packet.sequence = 0 ↔ packet.sequence.toNat = 0 := by
    rw [← UInt8.toNat_inj]
    rfl
  rw [acceptData]
  by_cases hid : packet.id ≠ part.header.id
  · rw [if_pos hid, if_pos hid]
  rw [if_neg hid, if_neg hid]
  by_cases hfirst : packet.sequence.toNat = 0
  · rw [if_pos (hzero.2 hfirst), if_pos (.inl hfirst)]
  rw [if_neg (mt hzero.1 hfirst)]
  by_cases hbeyond : packet.sequence.toNat > part.header.packets.toNat
  · rw [if_pos (.inr hbeyond), List.getElem?_eq_none (by omega)]
  rw [if_neg (not_or.2 ⟨hfirst, hbeyond⟩), Datagram.filled]
  have hin : packet.sequence.toNat - 1 < part.slots.length := by omega
  rw [List.getElem?_eq_getElem hin, Option.join_some]
  cases part.slots[packet.sequence.toNat - 1] with
  | none => rfl
  | some bytes => rfl

/-- What is under way has a header that passes its check, and a slot for each packet that it
counts. -/
structure Checked (assembly : Assembly) : Prop where
  check_eq : ∀ part, assembly = some part → part.header.check = .ok ()
  fitting : assembly.Fitting

theorem checked_none : Checked none :=
  ⟨nofun, fitting_none⟩

theorem checked_awaiting {header : Datagram.Header} (h : header.check = .ok ()) :
    Checked (some (.awaiting header)) where
  check_eq := by
    rintro _ ⟨⟩
    exact h
  fitting := by
    rintro _ ⟨⟩
    exact List.length_replicate

theorem Checked.fill (h : Checked (some part)) (i : Nat) (bytes : Bytes) :
    Checked (some (part.fill i bytes)) where
  check_eq := by
    rintro _ ⟨⟩
    exact h.check_eq part rfl
  fitting := by
    rintro _ ⟨⟩
    exact List.length_set.trans (h.fitting part rfl)

end Assembly

namespace Datagram

/-- A header that passes its check announces a payload that fits, in as many packets as it
needs. -/
theorem Header.check_eq_ok_iff {header : Header} : header.check = .ok () ↔
    header.total.toNat ≤ 2048 ∧ header.packets.toNat = packetsFor header.total.toNat := by
  have hmax : maxSize = 2048 := rfl
  have hmost : maxDataPackets = 16 := rfl
  rw [check, packetsFor]
  constructor
  · intro h
    split at h
    · cases h
    · split at h
      · cases h
      · omega
  · rintro ⟨htotal, hpackets⟩
    rw [if_neg (by omega), if_neg (by omega)]

end Datagram

/-- It has room in memory, slot by slot. -/
theorem Assembly.Checked.room {part : Datagram} (h : Checked (some part)) :
    part.header.total.toNat ≤ 2048 ∧ part.header.packets.toNat = part.slots.length
      ∧ part.slots.length = (part.header.total.toNat + 127) / 128 ∧ part.slots.length ≤ 16 := by
  obtain ⟨htotal, hpackets⟩ := Datagram.Header.check_eq_ok_iff.1 (h.check_eq part rfl)
  have hfit := h.fitting part rfl
  exact ⟨htotal, hfit.symm, hfit.trans hpackets,
    Nat.le_trans (Nat.le_of_eq (hfit.trans hpackets)) (Datagram.packetsFor_le htotal)⟩

namespace Datagram

/-- The bytes of a slot go where it lies in memory. -/
theorem buffer_fill {part : Datagram} {i : Nat} (hi : i < part.slots.length)
    (hempty : part.filled i = none) {bytes : Bytes} (hbytes : bytes.length ≤ 128)
    (hfits : i < 16) :
    Store.place? part.buffer (i * 128) bytes = some (part.fill i bytes).buffer := by
  rw [Store.place?_eq (by omega)]
  refine congrArg some (Vector.ext fun k hk => ?_)
  rw [Vector.getElem_ofFn, buffer, buffer, Vector.getElem_ofFn, filled_fill hi]
  simp only [Fin.getElem_fin, Vector.getElem_ofFn]
  -- Behind the end of the packet its slot reads as zeros, which is what was there.
  by_cases hk' : k / 128 = i
  · rw [if_pos hk', byteAt_slotBytes_some (Nat.mod_lt _ (by decide)), hk', hempty,
      byteAt_slotBytes_none]
    split
    · congr 1
      omega
    · exact (Bytes.byteAt_of_le (by omega)).symm
  · rw [if_neg hk', if_neg (by omega)]

theorem marks_fill {part : Datagram} {i : Nat} (hi : i < part.slots.length) (bytes : Bytes) :
    part.marks.setIfInBounds (i + 1) true = (part.fill i bytes).marks := by
  refine Vector.ext fun s hs => ?_
  rw [Vector.getElem_setIfInBounds, marks, marks, Vector.getElem_ofFn, Vector.getElem_ofFn,
    filled_fill hi]
  by_cases hs' : i + 1 = s
  · rw [if_pos hs', if_pos (show s - 1 = i by omega)]
    simp
  · by_cases hzero : s = 0
    · simp [hzero]
    · rw [if_neg hs', if_neg (show ¬s - 1 = i by omega)]

theorem getElem?_marks {part : Datagram} {i : Nat} (hi : i < 16) :
    part.marks[i + 1]? = some (part.filled i).isSome := by
  rw [marks, Vector.getElem?_ofFn, dif_pos (by omega)]
  simp

theorem received_fill {part : Datagram} {i : Nat} (hi : i < part.slots.length)
    (hempty : part.filled i = none) (bytes : Bytes) :
    (part.fill i bytes).received = part.received + 1 := by
  have hslot : part.slots[i] = none := by
    rwa [filled, List.getElem?_eq_getElem hi, Option.join_some] at hempty
  show (part.slots.set i (some bytes)).countP Option.isSome = part.slots.countP Option.isSome + 1
  rw [List.countP_set hi, hslot]
  rfl

end Datagram

/-! ## Steps -/

namespace Store

/-- What a datagram goes through. -/
inductive Input where
  | header (packet : Packet)
  | data (packet : Packet)
  | reset

def perform (store : Store) : Input → Option (Except Fault Unit × Store)
  | .header packet => store.acceptHeader packet
  | .data packet => store.acceptData packet
  | .reset => some (.ok (), blank)

end Store

namespace Assembly

/-- A packet that is refused leaves what was under way. -/
def settle (assembly : Assembly) : Except Fault Assembly → Except Fault Unit × Assembly
  | .ok next => (.ok (), next)
  | .error fault => (.error fault, assembly)

def perform (assembly : Assembly) : Store.Input → Except Fault Unit × Assembly
  | .header packet => assembly.settle (assembly.acceptHeader packet)
  | .data packet => assembly.settle (assembly.acceptData packet)
  | .reset => (.ok (), none)

variable {assembly : Assembly} {fault : Fault}

theorem settle_refused {result : Except Fault Assembly}
    (h : (assembly.settle result).1 = .error fault) : (assembly.settle result).2 = assembly := by
  cases result with
  | ok next => cases h
  | error fault => rfl

/-- A refusal leaves what was under way. -/
theorem perform_refused {input : Store.Input} (h : (assembly.perform input).1 = .error fault) :
    (assembly.perform input).2 = assembly := by
  cases input with
  | reset => cases h
  | header packet => exact settle_refused h
  | data packet => exact settle_refused h

theorem Checked.perform (h : assembly.Checked) (input : Store.Input) :
    (assembly.perform input).2.Checked := by
  cases input with
  | reset => exact checked_none
  | header packet =>
    rw [Assembly.perform, acceptHeader_eq]
    cases Datagram.Header.decode packet.used with
    | error fault => exact h
    | ok header =>
      dsimp only
      cases assembly.holds header.id with
      | true => exact h
      | false =>
        cases hcheck : header.check with
        | error fault => exact h
        | ok => exact checked_awaiting hcheck
  | data packet =>
    cases assembly with
    | none => exact h
    | some part =>
      rw [Assembly.perform, acceptData_eq (h.fitting part rfl)]
      split
      · exact h
      split
      · exact h
      split
      · exact h.fill _ _
      · exact h

end Assembly

namespace Store

variable {assembly : Assembly}

theorem holds_iff {id : UInt32} : (of assembly).underWay = true ∧ (of assembly).header.id = id
    ↔ assembly.holds id = true := by
  cases assembly with
  | none => simp [of, blank, Assembly.holds]
  | some part => simp [of, Assembly.holds]

theorem acceptHeader_of (assembly : Assembly) (packet : Packet) :
    (of assembly).acceptHeader packet
      = some ((assembly.perform (.header packet)).1, of (assembly.perform (.header packet)).2) := by
  rw [acceptHeader, Assembly.perform, Assembly.acceptHeader_eq]
  simp only [used?_eq, decode?_eq, Option.bind_eq_bind, Option.bind_some]
  cases Datagram.Header.decode packet.used with
  | error fault => rfl
  | ok header =>
    dsimp only
    by_cases hheld : assembly.holds header.id = true
    · rw [if_pos (holds_iff.2 hheld), if_pos hheld]
      rfl
    · rw [if_neg (mt holds_iff.1 hheld), if_neg hheld]
      cases header.check with
      | error fault => rfl
      | ok => rw [← of_awaiting]; rfl

theorem acceptData_of (h : assembly.Checked) (packet : Packet) :
    (of assembly).acceptData packet
      = some ((assembly.perform (.data packet)).1, of (assembly.perform (.data packet)).2) := by
  cases assembly with
  | none => rfl
  | some part =>
    obtain ⟨-, hpackets, -, hmost⟩ := h.room
    rw [Assembly.perform, Assembly.acceptData_eq hpackets.symm, acceptData]
    show (if true = false ∨ packet.id ≠ part.header.id then _
      else if packet.sequence.toNat = 0 ∨ packet.sequence.toNat > part.header.packets.toNat then _
      else if part.marks[packet.sequence.toNat]? = some false then _ else _) = _
    by_cases hid : packet.id ≠ part.header.id
    · rw [if_pos (.inr hid), if_pos hid]
      rfl
    rw [if_neg (not_or.2 ⟨Bool.noConfusion, hid⟩), if_neg hid]
    by_cases hrange : packet.sequence.toNat = 0
        ∨ packet.sequence.toNat > part.header.packets.toNat
    · rw [if_pos hrange, if_pos hrange]
      rfl
    rw [if_neg hrange, if_neg hrange]
    -- Within the range the table and the slots say the same of packet `i + 1`.
    obtain ⟨i, hi⟩ : ∃ i, packet.sequence.toNat = i + 1 := ⟨packet.sequence.toNat - 1, by omega⟩
    have hin : i < part.slots.length := by omega
    rw [hi, Nat.add_sub_cancel, Datagram.getElem?_marks (by omega)]
    cases hslot : part.filled i with
    | some bytes => simp [Assembly.settle, of]
    | none =>
      have hplace : place? (of (some part)).data (i * 128) packet.used
          = some (part.fill i packet.used).buffer :=
        Datagram.buffer_fill hin hslot (length_used_le packet) (by omega)
      rw [if_pos rfl, used?_eq, Option.bind_eq_bind, Option.bind_some, hplace]
      show some (Except.ok (), { of (some part) with
          data := (part.fill i packet.used).buffer
          received := part.marks.setIfInBounds (i + 1) true
          count := UInt16.ofNat part.received + 1 })
        = some (Except.ok (), of (some (part.fill i packet.used)))
      rw [Datagram.marks_fill hin, of, of, Datagram.received_fill hin hslot, UInt16.ofNat_add]
      rfl

/-- A step in memory is the step of the datagram under way. -/
theorem perform_of (h : assembly.Checked) (input : Input) : (of assembly).perform input
    = some ((assembly.perform input).1, of (assembly.perform input).2) := by
  cases input with
  | header packet => exact acceptHeader_of assembly packet
  | data packet => exact acceptData_of h packet
  | reset => rfl

/-! ## Views -/

theorem has_of {part : Datagram} {i : Nat} (hi : i < 16) :
    (of (some part)).has (i + 1) = (part.filled i).isSome := by
  show (part.marks[i + 1]?).getD false = _
  rw [Datagram.getElem?_marks hi]
  rfl

theorem has_zero_of (part : Datagram) : (of (some part)).has 0 = true := by
  show (part.marks[0]?).getD false = true
  rw [Datagram.marks, Vector.getElem?_ofFn, dif_pos (by decide)]
  rfl

theorem has_of_le (store : Store) {s : Nat} (h : 17 ≤ s) : store.has s = false := by
  rw [has, Vector.getElem?_eq_none (by omega)]
  rfl

theorem has_blank (s : Nat) : blank.has s = false := by
  show ((Vector.replicate 17 false)[s]?).getD false = false
  rw [Vector.getElem?_replicate]
  split <;> rfl

theorem slot_of {part : Datagram} {i : Nat} (hi : i < 16) :
    (of (some part)).slot (i + 1) = Datagram.slotBytes (part.filled i) := by
  apply List.ext_getElem
  · rw [slot, List.length_take, List.length_drop, Vector.length_toList, Datagram.slotBytes,
      Bytes.length_padTo]
    omega
  · intro k hk hk'
    rw [Datagram.slotBytes, Bytes.length_padTo] at hk'
    simp only [slot, of, Datagram.buffer, Nat.add_sub_cancel, List.getElem_take, List.getElem_drop,
      Vector.getElem_toList, Vector.getElem_ofFn]
    rw [show (i * 128 + k) / 128 = i by omega, show (i * 128 + k) % 128 = k by omega,
      Bytes.byteAt_eq_getElem]

theorem take_buffer {part : Datagram} {n : Nat} (hslots : n ≤ 128 * part.slots.length)
    (hfits : n ≤ 2048) :
    part.buffer.toList.take n = (part.slots.flatMap Datagram.slotBytes).take n := by
  have hblocks : ∀ block ∈ part.slots.map Datagram.slotBytes, block.length = 128 := by
    intro block hmem
    obtain ⟨slot, -, rfl⟩ := List.mem_map.1 hmem
    exact Bytes.length_padTo _ _
  have hpieces := Bytes.pieces_flatten (by decide) hblocks
  -- Byte by byte, since a slot in memory has no bounds of its own.
  apply List.ext_getElem?
  intro k
  rw [List.getElem?_take, List.getElem?_take]
  by_cases hk : k < n
  · rw [if_pos hk, if_pos hk]
    have hi : k / 128 < part.slots.length := by omega
    -- The block around byte `k` is what its slot stands for.
    have hblock := Bytes.getElem?_pieces (part.slots.map Datagram.slotBytes).flatten
      (by rw [hpieces, List.length_map]; exact hi)
    rw [hpieces, List.getElem?_map, List.getElem?_eq_getElem hi, Option.map_some,
      Option.some.injEq] at hblock
    have hbyte := congrArg (·[k % 128]?) hblock
    simp only [List.getElem?_take, List.getElem?_drop, Nat.div_add_mod',
      if_pos (Nat.mod_lt k (show 128 > 0 by decide))] at hbyte
    have hslot : part.filled (k / 128) = part.slots[k / 128] := by
      rw [Datagram.filled, List.getElem?_eq_getElem hi, Option.join_some]
    have hlength : (Datagram.slotBytes part.slots[k / 128]).length = 128 := Bytes.length_padTo _ _
    rw [List.flatMap_def, ← hbyte, List.getElem?_eq_getElem (by rw [Vector.length_toList]; omega),
      Vector.getElem_toList, Datagram.buffer, Vector.getElem_ofFn, hslot,
      Bytes.byteAt_eq_getElem (by rw [hlength]; exact Nat.mod_lt _ (by decide)),
      ← List.getElem?_eq_getElem]
  · rw [if_neg hk, if_neg hk]

/-- Slot by slot, what is in memory are the slots. -/
theorem contents?_of (h : assembly.Checked) :
    (of assembly).contents? = some assembly.datagram.data := by
  cases assembly with
  | none =>
    rw [contents?, Bytes.slice?_eq (Nat.zero_le _)
      (by rw [Vector.length_toList]; exact Nat.min_le_right _ _)]
    rfl
  | some part =>
    obtain ⟨htotal, -, hslots, -⟩ := h.room
    rw [contents?, Bytes.slice?_eq (Nat.zero_le _) (by rw [Vector.length_toList]; omega),
      List.drop_zero]
    show some (part.buffer.toList.take (min part.header.total.toNat 2048)) = _
    rw [Nat.min_eq_left htotal, take_buffer (by omega) htotal]
    rfl

/-- The count is that of the filled slots. -/
theorem count_of {part : Datagram} (h : Assembly.Checked (some part)) :
    (of (some part)).count.toNat = part.received := by
  obtain ⟨-, -, -, hmost⟩ := h.room
  have hle : part.received ≤ part.slots.length := List.countP_le_length
  show (UInt16.ofNat part.received).toNat = _
  rw [UInt16.toNat_ofNat']
  exact Nat.mod_eq_of_lt (by omega)

theorem isComplete_of (h : assembly.Checked) : (of assembly).isComplete = assembly.isComplete := by
  cases assembly with
  | none => rfl
  | some part =>
    obtain ⟨-, hpackets, -, -⟩ := h.room
    rw [Bool.eq_iff_iff]
    show (true && (of (some part)).count == part.header.packets) = true
      ↔ part.slots.all Option.isSome = true
    rw [Bool.true_and, beq_iff_eq, ← UInt16.toNat_inj, count_of h, hpackets, List.all_eq_true,
      ← List.countP_eq_length]
    rfl

theorem length_contents_of (h : assembly.Checked) :
    assembly.datagram.data.length = (of assembly).header.total.toNat := by
  cases assembly with
  | none => rfl
  | some part =>
    obtain ⟨htotal, -, hslots, -⟩ := h.room
    show ((part.slots.flatMap Datagram.slotBytes).take part.header.total.toNat).length = _
    rw [← take_buffer (by omega) htotal, List.length_take, Vector.length_toList]
    exact Nat.min_eq_left htotal

/-- Every packet of a datagram has a part of its payload. -/
theorem piece?_of (h : assembly.Checked) {s : Nat} (hpos : 0 < s)
    (hs : s ≤ (of assembly).header.packets.toNat) :
    ∃ piece, (of assembly).piece? s = some piece := by
  have hlength := length_contents_of h
  rw [piece?, contents?_of h]
  cases assembly with
  | none => exact absurd hs (Nat.not_le.2 hpos)
  | some part =>
    obtain ⟨-, hpackets, hslots, -⟩ := h.room
    have hs' : s ≤ part.header.packets.toNat := hs
    have hlength' : (Assembly.datagram (some part)).data.length = part.header.total.toNat := hlength
    exact ⟨_, Bytes.slice?_eq (by omega) (Nat.min_le_right _ _)⟩

end Store

namespace Datagram

theorem slots_eq (part : Datagram) :
    part.slots = (List.range part.slots.length).map part.filled := by
  apply List.ext_getElem
  · simp
  · intro i hi hi'
    rw [List.getElem_map, List.getElem_range, filled, List.getElem?_eq_getElem hi,
      Option.join_some]

/-- Counting the filled slots is counting the packets that are in. -/
theorem received_eq (part : Datagram) :
    part.received = (List.range part.slots.length).countP fun i => (part.filled i).isSome := by
  show part.slots.countP Option.isSome = _
  conv => lhs; rw [part.slots_eq]
  rw [List.countP_map]
  rfl

theorem all_isSome_iff (part : Datagram) : part.slots.all Option.isSome = true
    ↔ ∀ i < part.slots.length, (part.filled i).isSome = true := by
  conv => lhs; rw [part.slots_eq]
  rw [List.all_map, List.all_eq_true]
  simp only [List.mem_range, Function.comp_apply]

end Datagram

/-! ## Accounts -/

namespace Store

/-- A datagram in memory, with the data packets that it has taken since a header if it has taken
one. -/
structure Account where
  store : Store
  taken : Option (List Packet) := none

namespace Account

/-- The packets taken, when an input has come to `result` and `next`. -/
def update (account : Account) (next : Store) : Input → Except Fault Unit → Option (List Packet)
  | .reset, _ => none
  | .header _, .ok () =>
    -- The header of the datagram under way comes again, or starts another.
    if account.store.underWay ∧ account.store.header.id = next.header.id then account.taken
    else some []
  | .data packet, .ok () => account.taken.map (· ++ [packet])
  | _, .error _ => account.taken

def step (account : Account) (input : Input) : Option Account := do
  let (result, next) ← account.store.perform input
  some { store := next, taken := account.update next input result }

/-- Input after input, refused or not. -/
def run (account : Account) (inputs : List Input) : Option Account :=
  inputs.foldlM step account

end Account

/-- The first of the packets that is packet `s`. -/
def first? (packets : List Packet) (s : Nat) : Option Packet :=
  packets.find? fun packet => packet.sequence.toNat == s

/-- What is under way, told by the packets taken since the header: what it was to begin with,
nothing, or a datagram with in each slot the first packet that came for it. -/
inductive Told (start : Assembly) : Option (List Packet) → Assembly → Prop
  | untouched : Told start none start
  | emptied : Told start none none
  | since {packets : List Packet} {part : Datagram}
    (filled_eq : ∀ i < part.slots.length,
      part.filled i = (first? packets (i + 1)).map Packet.used) :
    Told start (some packets) (some part)

/-- Nothing is under way, or all that belongs to it is in. -/
def Full (assembly : Assembly) : Prop :=
  ∀ part, assembly = some part → ∀ i < part.slots.length, part.filled i ≠ none

variable {start assembly : Assembly} {taken : Option (List Packet)}

theorem first?_snoc (packets : List Packet) (packet : Packet) (s : Nat) :
    first? (packets ++ [packet]) s
      = (first? packets s).or (if packet.sequence.toNat = s then some packet else none) := by
  rw [first?, List.find?_append]
  congr 1
  by_cases hs : packet.sequence.toNat = s
  · rw [if_pos hs, List.find?_cons_of_pos (by simpa using hs)]
  · rw [if_neg hs, List.find?_cons_of_neg (by simpa using hs)]
    rfl

/-- A packet that fills a slot is the first that came for it. -/
theorem Told.fill {part : Datagram} (h : Told start taken (some part)) (hfull : Full start)
    {packet : Packet} {i : Nat} (hi : packet.sequence.toNat = i + 1) (hin : i < part.slots.length)
    (hempty : part.filled i = none) :
    Told start (taken.map (· ++ [packet])) (some (part.fill i packet.used)) := by
  cases h with
  -- What a datagram was made with leaves no slot empty.
  | untouched => exact absurd hempty (hfull part rfl i hin)
  | @since packets _ filled_eq =>
    refine .since fun j hj => ?_
    have hj' : j < part.slots.length := by rwa [Datagram.fill, List.length_set] at hj
    -- The slot is empty, so nothing that was taken before had this number.
    have hnone : first? packets (i + 1) = none := by
      have hfilled := filled_eq i hin
      rw [hempty] at hfilled
      exact Option.map_eq_none_iff.1 hfilled.symm
    rw [Datagram.filled_fill hin, first?_snoc, hi]
    by_cases hsame : j = i
    · rw [if_pos hsame, hsame, hnone, if_pos rfl]
      rfl
    · rw [if_neg hsame, filled_eq j hj', if_neg (by omega), Option.or_none]

/-- What is told of the datagram under way is kept up to date. -/
theorem Told.step (h : Told start taken assembly) (hfull : Full start) (hchecked : assembly.Checked)
    (input : Input) : Told start
      ((Account.mk (of assembly) taken).update (of (assembly.perform input).2) input
        (assembly.perform input).1)
      (assembly.perform input).2 := by
  cases input with
  | reset => exact .emptied
  | header packet =>
    rw [Assembly.perform, Assembly.acceptHeader_eq]
    cases Datagram.Header.decode packet.used with
    | error fault => exact h
    | ok header =>
      dsimp only
      -- The header again, or that of another datagram, for which nothing has come yet.
      by_cases hheld : assembly.holds header.id = true
      · rw [if_pos hheld]
        show Told start (if (of assembly).underWay ∧ (of assembly).header.id = _ then _ else _) _
        rw [if_pos ⟨(holds_iff.2 hheld).1, rfl⟩]
        exact h
      · rw [if_neg hheld]
        cases hcheck : header.check with
        | error fault => exact h
        | ok =>
          show Told start (if (of assembly).underWay ∧ (of assembly).header.id = header.id then _
            else _) _
          rw [if_neg (mt holds_iff.1 hheld)]
          exact .since fun i _ => Datagram.filled_awaiting header i
  | data packet =>
    cases assembly with
    | none => exact h
    | some part =>
      rw [Assembly.perform, Assembly.acceptData_eq (hchecked.fitting part rfl)]
      split
      · exact h
      split
      · exact h
      split
      next hrange hempty =>
        have hfit := hchecked.fitting part rfl
        exact h.fill hfull (by omega) (by omega) hempty
      · exact h

/-- What holds of a datagram in memory that began as `start` and has taken the packets `taken` since
its header, if it has taken a header. -/
structure Accounted (start : Store) (taken : Option (List Packet)) (store : Store) : Prop where
  total_le : store.header.total.toNat ≤ 2048
  packets_eq : store.header.packets.toNat = (store.header.total.toNat + 127) / 128
  count_eq : store.count.toNat
    = (List.range store.header.packets.toNat).countP fun i => store.has (i + 1)
  has_beyond : ∀ s, store.header.packets.toNat < s → store.has s = false
  empty : store.underWay = false →
    store.header = {} ∧ store.data = Vector.replicate 2048 0 ∧ store.has 0 = false
  /-- Without a header it is what it was to begin with. -/
  untouched : taken = none → store.underWay = true → store = start
  /-- With one, each slot holds what the first packet for it carried, and zeros. -/
  slot_eq : ∀ packets, taken = some packets → store.underWay = true ∧
    ∀ s, 0 < s → s ≤ store.header.packets.toNat →
      store.has s = (first? packets s).isSome
        ∧ store.slot s = Bytes.padTo 128 (((first? packets s).map Packet.used).getD [])
  complete_iff : store.isComplete = true ↔
    store.has 0 = true ∧ ∀ s, 0 < s → s ≤ store.header.packets.toNat → store.has s = true

/-- It is complete when every packet is in. -/
theorem isComplete_iff {part : Datagram} (h : Assembly.Checked (some part)) :
    (of (some part)).isComplete = true
      ↔ ∀ s, 0 < s → s ≤ part.slots.length → (of (some part)).has s = true := by
  obtain ⟨-, -, -, hmost⟩ := h.room
  rw [isComplete_of h]
  show part.slots.all Option.isSome = true ↔ _
  rw [part.all_isSome_iff]
  constructor
  · intro hall s hpos hs
    obtain ⟨i, rfl⟩ := Nat.exists_eq_add_one_of_ne_zero (Nat.ne_of_gt hpos)
    rw [has_of (by omega)]
    exact hall i (by omega)
  · intro hall i hi
    rw [← has_of (by omega)]
    exact hall (i + 1) (Nat.succ_pos i) (by omega)

theorem accounted_none (h : Told start taken none) : Accounted (of start) taken blank where
  total_le := Nat.zero_le _
  packets_eq := rfl
  count_eq := rfl
  has_beyond s _ := has_blank s
  empty _ := ⟨rfl, rfl, has_blank 0⟩
  untouched _ hway := Bool.noConfusion hway
  slot_eq := by
    rintro packets rfl
    cases h
  complete_iff := iff_of_false Bool.noConfusion fun hin =>
    Bool.noConfusion ((has_blank 0).symm.trans hin.1)

/-- What is under way gives the account of it that memory gives. -/
theorem accounted_of (h : Told start taken assembly) (hchecked : assembly.Checked) :
    Accounted (of start) taken (of assembly) := by
  cases assembly with
  | none => exact accounted_none h
  | some part =>
    obtain ⟨htotal, hpackets, hslots, hmost⟩ := hchecked.room
    have hheader : (of (some part)).header.packets.toNat = part.slots.length := hpackets
    refine ⟨htotal, hheader.trans hslots, ?_, ?_, fun hway => Bool.noConfusion hway, ?_, ?_, ?_⟩
    · rw [count_of hchecked, hheader, part.received_eq]
      refine List.countP_congr fun i hi => ?_
      rw [has_of (by have := List.mem_range.1 hi; omega)]
    · intro s hs
      rcases Nat.lt_or_ge s 17 with hlt | hge
      · obtain ⟨i, rfl⟩ := Nat.exists_eq_add_one_of_ne_zero (by omega : s ≠ 0)
        rw [has_of (by omega), Datagram.filled_of_le (by omega)]
        rfl
      · exact has_of_le _ hge
    · rintro rfl -
      cases h
      rfl
    · rintro packets rfl
      cases h with
      | since filled_eq =>
        refine ⟨rfl, fun s hpos hs => ?_⟩
        obtain ⟨i, rfl⟩ := Nat.exists_eq_add_one_of_ne_zero (Nat.ne_of_gt hpos)
        rw [has_of (by omega), slot_of (by omega), filled_eq i (by omega), Option.isSome_map]
        exact ⟨rfl, rfl⟩
    · rw [isComplete_iff hchecked, hheader]
      exact ⟨fun hall => ⟨has_zero_of part, hall⟩, fun hall => hall.2⟩

/-- What ends what is under way: a reset, and the header of another datagram. -/
def Restarts (store : Store) : Input → Prop
  | .reset => True
  | .header packet => ∃ header, Datagram.Header.decode packet.used = .ok header
    ∧ header.id ≠ store.header.id
  | .data _ => False

/-- Until then, what is in stays as it is. -/
theorem kept_of (h : assembly.Checked) {input : Input} (hkeeps : ¬Restarts (of assembly) input)
    {s : Nat} (hpos : 0 < s) (hs : (of assembly).has s = true) :
    (of (assembly.perform input).2).has s = true
      ∧ (of (assembly.perform input).2).slot s = (of assembly).slot s := by
  cases assembly with
  | none => exact Bool.noConfusion ((has_blank s).symm.trans hs)
  | some part =>
    cases input with
    | reset => exact absurd trivial hkeeps
    | header packet =>
      rw [Assembly.perform, Assembly.acceptHeader_eq]
      cases hdecode : Datagram.Header.decode packet.used with
      | error fault => exact ⟨hs, rfl⟩
      | ok header =>
        have hsame : part.header.id = header.id :=
          Decidable.not_not.1 fun hother => hkeeps ⟨header, hdecode, Ne.symm hother⟩
        have hheld : Assembly.holds (some part) header.id = true := beq_iff_eq.2 hsame
        dsimp only
        rw [if_pos hheld]
        exact ⟨hs, rfl⟩
    | data packet =>
      rw [Assembly.perform, Assembly.acceptData_eq (h.fitting part rfl)]
      split
      · exact ⟨hs, rfl⟩
      split
      · exact ⟨hs, rfl⟩
      split
      next hrange hempty =>
        obtain ⟨i, rfl⟩ := Nat.exists_eq_add_one_of_ne_zero (Nat.ne_of_gt hpos)
        have hfit := h.fitting part rfl
        have hi : i < 16 := by
          refine Nat.lt_of_not_le fun hge => ?_
          exact Bool.noConfusion ((has_of_le _ (by omega)).symm.trans hs)
        rw [has_of hi] at hs
        -- The packet goes to another slot, as its own was empty.
        have hother : i ≠ packet.sequence.toNat - 1 := by
          rintro rfl
          rw [hempty] at hs
          cases hs
        show (of (some (part.fill _ _))).has (i + 1) = true ∧ (of (some (part.fill _ _))).slot _ = _
        rw [has_of hi, slot_of hi, slot_of hi, Datagram.filled_fill (by omega), if_neg hother]
        exact ⟨hs, rfl⟩
      · exact ⟨hs, rfl⟩

/-! ## Any run -/

/-- How a datagram in memory comes about, and what is under way then. -/
inductive Start : Store → Assembly → Prop
  | blank : Start blank none
  | composed {kind : Datagram.Kind} {id : UInt32} {data : Bytes} {store : Store}
    (h : compose kind id data = some (.ok store)) : Start store (some (.pack kind id none data))
  | addressed {kind : Datagram.Kind} {id : UInt32} {data : Bytes} {store : Store}
    (h : compose kind id data = some (.ok store)) (node : UInt8) :
    Start (store.addressed node) (some (.pack kind id (some node) data))

theorem of_compose {kind : Datagram.Kind} {id : UInt32} {data : Bytes} {store : Store}
    (h : compose kind id data = some (.ok store)) :
    store = of (some (.pack kind id none data)) ∧ data.length ≤ 2048 := by
  rw [compose_eq] at h
  by_cases hlarge : data.length > Datagram.maxSize
  · rw [if_pos hlarge] at h
    cases h
  · rw [if_neg hlarge] at h
    exact ⟨(Except.ok.inj (Option.some.inj h)).symm, Nat.not_lt.1 hlarge⟩

theorem checked_pack (kind : Datagram.Kind) (id : UInt32) (target : Option UInt8) {data : Bytes}
    (hfits : data.length ≤ 2048) : Assembly.Checked (some (.pack kind id target data)) := by
  have hle := Datagram.packetsFor_le hfits
  have hpackets : (UInt16.ofNat (Datagram.packetsFor data.length)).toNat
      = Datagram.packetsFor data.length := by
    rw [UInt16.toNat_ofNat']
    omega
  have htotal : (UInt32.ofNat data.length).toNat = data.length := by
    rw [UInt32.toNat_ofNat']
    omega
  constructor
  · rintro _ ⟨⟩
    refine Datagram.Header.check_eq_ok_iff.2 ⟨Nat.le_trans (Nat.le_of_eq htotal) hfits, ?_⟩
    show (UInt16.ofNat _).toNat = Datagram.packetsFor (UInt32.ofNat data.length).toNat
    rw [hpackets, htotal]
  · rintro _ ⟨⟩
    exact (Datagram.length_slots_pack kind id target data).trans hpackets.symm

theorem full_pack (kind : Datagram.Kind) (id : UInt32) (target : Option UInt8) (data : Bytes) :
    Full (some (.pack kind id target data)) := by
  rintro _ ⟨⟩ i hi
  rw [Datagram.length_slots_pack] at hi
  rw [Datagram.filled_pack, if_pos hi]
  exact nofun

/-- A datagram begins as what is under way, and that lacks nothing. -/
theorem Start.spec {store : Store} (h : Start store start) :
    store = of start ∧ start.Checked ∧ Full start := by
  cases h with
  | blank => exact ⟨rfl, Assembly.checked_none, nofun⟩
  | composed h =>
    obtain ⟨hstore, hfits⟩ := of_compose h
    exact ⟨hstore, checked_pack _ _ _ hfits, full_pack _ _ _ _⟩
  | addressed h node =>
    obtain ⟨hstore, hfits⟩ := of_compose h
    refine ⟨?_, checked_pack _ _ _ hfits, full_pack _ _ _ _⟩
    rw [hstore]
    rfl

end Store

/-- What is under way after input after input. -/
def Assembly.performAll (assembly : Assembly) (inputs : List Store.Input) : Assembly :=
  inputs.foldl (fun assembly input => (assembly.perform input).2) assembly

namespace Store

variable {start assembly : Assembly} {taken : Option (List Packet)}

/-- A run in memory is the run of the datagram under way. -/
theorem Told.run (h : Told start taken assembly) (hfull : Full start) (hchecked : assembly.Checked)
    (inputs : List Input) : ∃ taken',
      Account.run ⟨of assembly, taken⟩ inputs = some ⟨of (assembly.performAll inputs), taken'⟩
      ∧ Told start taken' (assembly.performAll inputs) ∧ (assembly.performAll inputs).Checked := by
  induction inputs generalizing assembly taken with
  | nil => exact ⟨taken, rfl, h, hchecked⟩
  | cons input inputs ih =>
    obtain ⟨taken', hrun, htold, hlater⟩ :=
      ih (h.step hfull hchecked input) (hchecked.perform input)
    refine ⟨taken', ?_, htold, hlater⟩
    rw [Account.run, List.foldlM_cons, Account.step]
    show ((of assembly).perform input >>= _) >>= _ = _
    rw [perform_of hchecked]
    exact hrun

/-- An input does to an empty datagram that is addressed what it does to the blank one, unless it is
refused. -/
theorem perform_addressed (node : UInt8) (input : Input) :
    (blank.addressed node).perform input = blank.perform input
      ∨ ∃ fault, blank.perform input = some (.error fault, blank)
        ∧ (blank.addressed node).perform input = some (.error fault, blank.addressed node) := by
  cases input with
  | reset => exact .inl rfl
  | data packet => exact .inr ⟨.internalError, rfl, rfl⟩
  | header packet =>
    simp only [perform, acceptHeader, used?_eq, decode?_eq, Option.bind_eq_bind, Option.bind_some]
    cases Datagram.Header.decode packet.used with
    | error fault => exact .inr ⟨fault, rfl, rfl⟩
    | ok header =>
      dsimp only
      rw [if_neg (fun h => Bool.noConfusion h.1), if_neg (fun h => Bool.noConfusion h.1)]
      cases header.check with
      | error fault => exact .inr ⟨fault, rfl, rfl⟩
      | ok => exact .inl rfl

/-- It differs from the blank one by its target alone, and no longer than nothing is taken. -/
theorem run_addressed (node : UInt8) (inputs : List Input) :
    Account.run ⟨blank.addressed node, none⟩ inputs = Account.run ⟨blank, none⟩ inputs
      ∨ Account.run ⟨blank, none⟩ inputs = some ⟨blank, none⟩
        ∧ Account.run ⟨blank.addressed node, none⟩ inputs
          = some ⟨blank.addressed node, none⟩ := by
  induction inputs with
  | nil => exact .inr ⟨rfl, rfl⟩
  | cons input inputs ih =>
    rw [Account.run, Account.run, List.foldlM_cons, List.foldlM_cons]
    rcases perform_addressed node input with hsame | ⟨fault, hblank, haddressed⟩
    · have hstep : Account.step ⟨blank.addressed node, none⟩ input
          = Account.step ⟨blank, none⟩ input := by
        rw [Account.step, hsame]
        rfl
      -- From here on the two are the same datagram.
      exact .inl (by rw [hstep])
    · have hnone : ∀ store next : Store,
          Account.update ⟨store, none⟩ next input (.error fault) = none := by
        cases input <;> exact fun _ _ => rfl
      rw [Account.step, Account.step, hblank, haddressed]
      simp only [Option.bind_eq_bind, Option.bind_some, hnone]
      exact ih

/-- A datagram in memory shows what is under way, and has a part of its payload for every packet. -/
structure Shows (store : Store) (assembly : Assembly) : Prop where
  header_eq : store.header = assembly.datagram.header
  underWay_eq : store.underWay = assembly.isSome
  isComplete_eq : store.isComplete = assembly.isComplete
  contents?_eq : store.contents? = some assembly.datagram.data
  exists_piece : ∀ s, 0 < s → s ≤ store.header.packets.toNat → ∃ piece, store.piece? s = some piece

theorem shows_of (h : assembly.Checked) : (of assembly).Shows assembly where
  header_eq := by cases assembly <;> rfl
  underWay_eq := by cases assembly <;> rfl
  isComplete_eq := isComplete_of h
  contents?_eq := contents?_of h
  exists_piece _ hpos hs := piece?_of h hpos hs

/-- Whatever a datagram in memory goes through, no index is ever out of range, and its header, its
bytes, its table and its count agree with each other, with the packets that were taken since the
header, and with what is under way. A refusal leaves all of it as it was, and what is in stays in
until a reset or the header of another datagram. An empty datagram that has been given a target
keeps that until something is taken, and is like the blank one otherwise. -/
theorem keeps_account :
    (∀ kind id data, ∃ result, compose kind id data = some result)
    ∧ (∀ start assembly, Start start assembly → ∀ inputs, ∃ store taken,
      Account.run ⟨start, none⟩ inputs = some ⟨store, taken⟩
        ∧ Accounted start taken store ∧ store.Shows (assembly.performAll inputs)
        ∧ ∀ input, ∃ result next, store.perform input = some (result, next)
          ∧ result = ((assembly.performAll inputs).perform input).1
          ∧ (∀ fault, result = .error fault → next = store)
          ∧ (¬Restarts store input → ∀ s, 0 < s → store.has s = true →
            next.has s = true ∧ next.slot s = store.slot s))
    ∧ ∀ node inputs,
      Account.run ⟨blank.addressed node, none⟩ inputs = Account.run ⟨blank, none⟩ inputs
        ∨ Account.run ⟨blank, none⟩ inputs = some ⟨blank, none⟩
          ∧ Account.run ⟨blank.addressed node, none⟩ inputs
            = some ⟨blank.addressed node, none⟩ := by
  refine ⟨fun kind id data => ⟨_, compose_eq kind id data⟩, fun start assembly hstart inputs => ?_,
    run_addressed⟩
  obtain ⟨rfl, hchecked, hfull⟩ := hstart.spec
  obtain ⟨taken, hrun, htold, hlater⟩ := Told.untouched.run hfull hchecked inputs
  refine ⟨_, taken, hrun, accounted_of htold hlater, shows_of hlater, fun input =>
    ⟨_, _, perform_of hlater input, rfl, fun fault hrefused => ?_, fun hkeeps s hpos hs => ?_⟩⟩
  · rw [Assembly.perform_refused hrefused]
  · exact kept_of hlater hkeeps hpos hs

/-- A packet that goes to the second slot of datagram 7 and announces more than it has room for. -/
def overlong (byte : UInt8) : Packet :=
  { Packet.blank with
    id := 7, sequence := 2, length := 0xFFFF, payload := List.replicate 128 byte
    payload_length := by simp }

/-- The header of a datagram of 200 bytes. -/
def announcement : Packet :=
  { Packet.blank with kind := .header, id := 7 }.carrying
    ({ id := 7, total := 200, packets := 2 } : Datagram.Header).encode

/-- Among the packets are a second one for the same slot, one past the last and one that belongs to
another datagram. -/
def gapped : List Input :=
  [.header announcement, .data (overlong 0x55), .data (overlong 0x66),
    .data { overlong 0x66 with sequence := 3 }, .data { overlong 0x66 with id := 8 }]

/-- The second slot has what came for it first, and keeps that, while the first is empty. -/
theorem keeps_account_gapped : ∃ store : Store,
    Account.run ⟨blank, none⟩ gapped = some ⟨store, some [overlong 0x55]⟩
    ∧ store.has 1 = false ∧ store.slot 1 = List.replicate 128 0
    ∧ store.has 2 = true ∧ store.slot 2 = List.replicate 128 0x55
    ∧ store.isComplete = false
    ∧ ∃ result next, store.perform (.data (overlong 0x66)) = some (result, next)
      ∧ next.has 2 = true ∧ next.slot 2 = List.replicate 128 0x55 := by
  obtain ⟨store, taken, hrun, haccount, -, hnext⟩ := keeps_account.2.1 blank none .blank gapped
  have hknown : (Account.run ⟨blank, none⟩ gapped).map
      (fun account => (account.taken, account.store.header.packets))
      = some (some [overlong 0x55], 2) := by
    decide +kernel
  rw [hrun, Option.map_some, Option.some.injEq, Prod.mk.injEq] at hknown
  obtain ⟨rfl, hpackets⟩ := hknown
  have hmany : store.header.packets.toNat = 2 := congrArg UInt16.toNat hpackets
  have hslots := (haccount.slot_eq _ rfl).2
  obtain ⟨hfirst, hzeros⟩ := hslots 1 (by decide) (by omega)
  obtain ⟨hsecond, hbytes⟩ := hslots 2 (by decide) (by omega)
  have hzeros : store.slot 1 = List.replicate 128 0 := hzeros.trans (by decide +kernel)
  have hbytes : store.slot 2 = List.replicate 128 0x55 := hbytes.trans (by decide +kernel)
  have hincomplete : ¬store.isComplete = true := fun hcomplete => by
    have hin := (haccount.complete_iff.1 hcomplete).2 1 (by decide) (by omega)
    exact Bool.noConfusion (hfirst.symm.trans hin)
  obtain ⟨result, next, hperform, -, -, hkept⟩ := hnext (.data (overlong 0x66))
  obtain ⟨hstill, hsame⟩ := hkept id 2 (by decide) hsecond
  exact ⟨store, hrun, hfirst, hzeros, hsecond, hbytes, Bool.eq_false_iff.2 hincomplete, result,
    next, hperform, hstill, hsame.trans hbytes⟩

end Store

end Reflash
