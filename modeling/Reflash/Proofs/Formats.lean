/-
  Reflash.Proofs.Formats

  The four fixed formats, each read and written both ways: the header of a datagram, the
  manifest of an image, the acknowledgement, and the record of the installed image on its
  flash page. A format is told by its tag bytes, looks at nothing behind its own length,
  and gives its bytes back, but for those that carry nothing.
-/
import Reflash.Proofs.Flash.Footprint
import Reflash.Proofs.Install.Record

namespace Reflash

/-! ## Formats -/

/-- A format of `size` bytes. What is encoded is read back, whatever lies behind it; of long enough
bytes only the first `size` are looked at, those with known tags are read, and what has been read is
encoded as `restore` gives the bytes back. -/
structure Format {α : Type} (size : Nat) (encode : α → Bytes) (decode : Bytes → Option α)
    (Tagged : Bytes → Prop) (restore : Bytes → Bytes) : Prop where
  length_encode : ∀ a, (encode a).length = size
  decode_encode : ∀ a behind, decode (encode a ++ behind) = some a
  decode_take : ∀ bytes, size ≤ bytes.length → decode (bytes.take size) = decode bytes
  exists_decode_iff : ∀ bytes, size ≤ bytes.length →
    ((∃ a, decode bytes = some a) ↔ Tagged bytes)
  encode_decode : ∀ bytes a, size ≤ bytes.length → decode bytes = some a →
    encode a = restore (bytes.take size)

theorem toOption_eq_some_iff {ε α : Type} {result : Except ε α} {a : α} :
    result.toOption = some a ↔ result = .ok a := by
  cases result <;> simp [Except.toOption]

/-- Bytes that are long enough begin with what they are cut into. -/
theorem Bytes.take_eq {bytes front : Bytes} {n : Nat} (hfront : front.length = n)
    (h : bytes = front ++ bytes.drop n) : bytes.take n = front := by
  rw [h, List.take_left' hfront]

theorem Bytes.padTo_drop {bytes : Bytes} {n offset : Nat} (h : offset + n ≤ bytes.length) :
    padTo n (bytes.drop offset) ++ bytes.drop (offset + n) = bytes.drop offset := by
  rw [padTo, List.length_drop, show n - (bytes.length - offset) = 0 by omega,
    List.replicate_zero, List.append_nil, ← List.drop_drop, List.take_append_drop]

theorem Bytes.padTo_drop_take {bytes : Bytes} {n offset : Nat} :
    padTo n ((bytes.take (offset + n)).drop offset) = padTo n (bytes.drop offset) := by
  rw [padTo, padTo, List.drop_take, List.take_take, List.length_take, List.length_drop,
    show min n (offset + n - offset) = n by omega,
    show n - min (offset + n - offset) (bytes.length - offset) = n - (bytes.length - offset) by
      omega]

/-! ## Manifests -/

namespace Manifest

theorem decode_eq {bytes : Bytes} (h : encodedSize ≤ bytes.length) :
    decode bytes = .ok {
      size := LittleEndian.word32At bytes 0
      crc := LittleEndian.word32At bytes 4
      major := bytes.byteAt 8
      minor := bytes.byteAt 9
      id := .ofBytes (bytes.drop 10) } := by
  rw [decode, if_neg (by omega)]

theorem format : Format encodedSize encode (fun bytes => (decode bytes).toOption) (fun _ => True)
    (fun bytes => bytes) where
  length_encode := length_encode
  decode_encode manifest behind := by rw [decode_encode]; rfl
  decode_take bytes h := by
    have hsize : encodedSize = 26 := rfl
    have hid : FirmwareId.ofBytes ((bytes.take encodedSize).drop 10)
        = .ofBytes (bytes.drop 10) := by
      rw [FirmwareId.ofBytes, FirmwareId.ofBytes]
      congr 1
      exact Bytes.padTo_drop_take
    rw [decode_eq (by rw [List.length_take]; omega), decode_eq h, hid,
      LittleEndian.word32At_take (by decide), LittleEndian.word32At_take (by decide),
      Bytes.byteAt_take (by decide), Bytes.byteAt_take (by decide)]
  exists_decode_iff bytes h := by
    rw [decode_eq h]
    exact iff_of_true ⟨_, rfl⟩ trivial
  encode_decode bytes manifest h hdecode := by
    have hsize : encodedSize = 26 := rfl
    rw [decode_eq h] at hdecode
    rw [← Option.some.inj hdecode]
    refine (Bytes.take_eq (length_encode _) ?_).symm
    show bytes = (LittleEndian.encode32 (LittleEndian.word32At bytes 0)
      ++ (LittleEndian.encode32 (LittleEndian.word32At bytes 4)
      ++ bytes.byteAt 8 :: bytes.byteAt 9 :: Bytes.padTo 16 (bytes.drop 10))) ++ bytes.drop 26
    rw [List.append_assoc, List.append_assoc, List.cons_append, List.cons_append,
      Bytes.padTo_drop (by omega), ← Bytes.drop_eq_byteAt_cons (by omega),
      ← Bytes.drop_eq_byteAt_cons (by omega), ← LittleEndian.drop_eq_encode32 (by omega),
      ← LittleEndian.drop_eq_encode32 (by omega), List.drop_zero]

end Manifest

/-! ## Acknowledgements -/

theorem Datagram.Kind.code_of_ofCode {code : UInt8} {kind : Kind} (h : ofCode code = .ok kind) :
    kind.code = code := by
  unfold ofCode at h
  split at h <;> cases h <;> rfl

theorem Datagram.Kind.exists_ofCode_iff {code : UInt8} :
    (∃ kind, ofCode code = .ok kind) ↔ code.toNat ≤ 7 := by
  constructor
  · rintro ⟨kind, h⟩
    rw [← code_of_ofCode h]
    cases kind <;> decide
  · intro h
    have hcases : code = 0 ∨ code = 1 ∨ code = 2 ∨ code = 3 ∨ code = 4 ∨ code = 5 ∨ code = 6
        ∨ code = 7 := by
      simp only [← UInt8.toNat_inj, UInt8.reduceToNat]
      omega
    rcases hcases with rfl | rfl | rfl | rfl | rfl | rfl | rfl | rfl <;> exact ⟨_, rfl⟩

namespace Acknowledgement

/-- The status byte `0` accepts, the status byte `1` refuses, and there is no other. -/
theorem decode_eq_ok_iff {bytes : Bytes} (h : encodedSize ≤ bytes.length)
    {ack : Acknowledgement} : decode bytes = .ok ack ↔
      bytes.byteAt 0 = (if ack.accepted then 0 else 1)
        ∧ Datagram.Kind.ofCode (bytes.byteAt 1) = .ok ack.kind
        ∧ LittleEndian.word32At bytes 2 = ack.id ∧ LittleEndian.word32At bytes 6 = ack.code := by
  obtain ⟨accepted, kind, id, code⟩ := ack
  rw [decode, if_neg (by omega)]
  -- The two tag bytes are all that is decided on, so the others need not be known.
  generalize bytes.byteAt 0 = status
  generalize Datagram.Kind.ofCode (bytes.byteAt 1) = known
  by_cases hzero : status = 0
  · subst hzero
    cases known <;> cases accepted <;> simp [bind, Except.bind]
  by_cases hone : status = 1
  · subst hone
    cases known <;> cases accepted <;> simp [bind, Except.bind]
  refine iff_of_false ?_ (by cases accepted <;> simp [hzero, hone])
  cases known <;> dsimp only <;> split <;> first | contradiction | simp [bind, Except.bind]

theorem format : Format encodedSize encode (fun bytes => (decode bytes).toOption)
    (fun bytes => (bytes.byteAt 0).toNat ≤ 1 ∧ (bytes.byteAt 1).toNat ≤ 7)
    (fun bytes => bytes) where
  length_encode := length_encode
  decode_encode ack behind := by rw [decode_encode]; rfl
  decode_take bytes h := by
    have hsize : encodedSize = 10 := rfl
    rw [decode, decode, if_neg (by rw [List.length_take]; omega), if_neg (by omega)]
    simp only [Bytes.byteAt_take (show 0 < encodedSize by decide),
      Bytes.byteAt_take (show 1 < encodedSize by decide),
      LittleEndian.word32At_take (show 2 + 4 ≤ encodedSize by decide),
      LittleEndian.word32At_take (show 6 + 4 ≤ encodedSize by decide)]
  exists_decode_iff bytes h := by
    simp only [toOption_eq_some_iff, decode_eq_ok_iff h]
    rw [← Datagram.Kind.exists_ofCode_iff]
    constructor
    · rintro ⟨ack, hstatus, hkind, -, -⟩
      refine ⟨?_, ack.kind, hkind⟩
      rw [hstatus]
      cases ack.accepted <;> decide
    · rintro ⟨hstatus, kind, hkind⟩
      refine ⟨⟨bytes.byteAt 0 = 0, kind, LittleEndian.word32At bytes 2,
        LittleEndian.word32At bytes 6⟩, ?_, hkind, rfl, rfl⟩
      by_cases hzero : bytes.byteAt 0 = 0
      · simp [hzero]
      · have hone : bytes.byteAt 0 = 1 := by
          rw [← UInt8.toNat_inj] at hzero ⊢
          simp only [UInt8.reduceToNat] at hzero ⊢
          omega
        simp [hone]
  encode_decode bytes ack h hdecode := by
    have hsize : encodedSize = 10 := rfl
    obtain ⟨hstatus, hkind, hid, hcode⟩ :=
      (decode_eq_ok_iff h).1 (toOption_eq_some_iff.1 hdecode)
    refine (Bytes.take_eq (length_encode _) ?_).symm
    rw [encode, ← hstatus, Datagram.Kind.code_of_ofCode hkind, ← hid, ← hcode, List.cons_append,
      List.cons_append, List.append_assoc, hsize, ← LittleEndian.drop_eq_encode32 (by omega),
      ← LittleEndian.drop_eq_encode32 (by omega), ← Bytes.drop_eq_byteAt_cons (by omega),
      ← Bytes.drop_eq_byteAt_cons (by omega), List.drop_zero]

end Acknowledgement

/-! ## Headers -/

namespace Datagram.Header

/-- What the flag and the node byte say. -/
def Targets (flag node : UInt8) : Option UInt8 → Prop
  | none => flag = 0
  | some target => flag = 1 ∧ node = target

theorem exists_targets_iff {flag : UInt8} (node : UInt8) :
    (∃ target, Targets flag node target) ↔ flag.toNat ≤ 1 := by
  constructor
  · rintro ⟨target | target, h⟩
    · rw [show flag = 0 from h]
      decide
    · rw [h.1]
      decide
  · intro h
    by_cases hzero : flag = 0
    · exact ⟨none, hzero⟩
    · refine ⟨some node, ?_, rfl⟩
      rw [← UInt8.toNat_inj] at hzero ⊢
      simp only [UInt8.reduceToNat] at hzero ⊢
      omega

theorem Targets.encodeTarget_eq {flag node : UInt8} {target : Option UInt8}
    (h : Targets flag node target) :
    encodeTarget target = [flag, if flag = 0 then 0 else node] := by
  cases target with
  | none => rw [show flag = 0 from h]; rfl
  | some target => rw [h.1, h.2]; rfl

theorem decode_eq_ok_iff {bytes : Bytes} (h : size ≤ bytes.length) {header : Header} :
    decode bytes = .ok header ↔
      Targets (bytes.byteAt 15) (bytes.byteAt 16) header.target
        ∧ Kind.ofCode (bytes.byteAt 0) = .ok header.kind
        ∧ LittleEndian.word32At bytes 1 = header.id
        ∧ LittleEndian.word32At bytes 5 = header.total
        ∧ LittleEndian.word16At bytes 9 = header.packets
        ∧ LittleEndian.word32At bytes 11 = header.crc := by
  obtain ⟨kind, id, total, packets, crc, target⟩ := header
  rw [decode, if_neg (by omega)]
  -- The flag and the kind are all that is decided on.
  generalize bytes.byteAt 15 = flag
  generalize Kind.ofCode (bytes.byteAt 0) = known
  by_cases hzero : flag = 0
  · subst hzero
    cases known <;> cases target <;> simp [bind, Except.bind, Targets]
  by_cases hone : flag = 1
  · subst hone
    cases known <;> cases target <;>
      simp [bind, Except.bind, Targets, and_comm, and_left_comm]
  refine iff_of_false ?_ (by cases target <;> simp [Targets, hzero, hone])
  dsimp only
  split <;> first | contradiction | simp [bind, Except.bind]

theorem decode_take {bytes : Bytes} (h : size ≤ bytes.length) :
    decode (bytes.take size) = decode bytes := by
  have hsize : size = 17 := rfl
  rw [decode, decode, if_neg (by rw [List.length_take]; omega), if_neg (by omega)]
  simp only [Bytes.byteAt_take (show 0 < size by decide),
    Bytes.byteAt_take (show 15 < size by decide), Bytes.byteAt_take (show 16 < size by decide),
    LittleEndian.word32At_take (show 1 + 4 ≤ size by decide),
    LittleEndian.word32At_take (show 5 + 4 ≤ size by decide),
    LittleEndian.word16At_take (show 9 + 2 ≤ size by decide),
    LittleEndian.word32At_take (show 11 + 4 ≤ size by decide)]

/-- Without a target the node byte says nothing. -/
theorem format : Format size encode (fun bytes => (decode bytes).toOption)
    (fun bytes => (bytes.byteAt 0).toNat ≤ 7 ∧ (bytes.byteAt 15).toNat ≤ 1)
    (fun bytes => if bytes.byteAt 15 = 0 then bytes.set 16 0 else bytes) where
  length_encode := length_encode
  decode_encode header behind := by
    rw [← decode_take (by rw [List.length_append, length_encode]; omega),
      List.take_left' (length_encode header), decode_encode]
    rfl
  decode_take bytes h := by rw [decode_take h]
  exists_decode_iff bytes h := by
    simp only [toOption_eq_some_iff, decode_eq_ok_iff h]
    rw [← Kind.exists_ofCode_iff, ← exists_targets_iff (bytes.byteAt 16)]
    constructor
    · rintro ⟨header, htarget, hkind, -⟩
      exact ⟨⟨header.kind, hkind⟩, header.target, htarget⟩
    · rintro ⟨⟨kind, hkind⟩, target, htarget⟩
      exact ⟨⟨kind, _, _, _, _, target⟩, htarget, hkind, rfl, rfl, rfl, rfl⟩
  encode_decode bytes header h hdecode := by
    have hsize : size = 17 := rfl
    obtain ⟨htarget, hkind, hid, htotal, hpackets, hcrc⟩ :=
      (decode_eq_ok_iff h).1 (toOption_eq_some_iff.1 hdecode)
    -- The bytes are those of the header, but for the node byte.
    let front : Bytes := header.kind.code :: (LittleEndian.encode32 header.id ++
      (LittleEndian.encode32 header.total ++ (LittleEndian.encode16 header.packets ++
        LittleEndian.encode32 header.crc)))
    have hfront : front.length = 15 := by rfl
    have htake : bytes.take size = front ++ [bytes.byteAt 15, bytes.byteAt 16] := by
      refine Bytes.take_eq (by rfl) ?_
      show bytes = header.kind.code :: (LittleEndian.encode32 header.id ++
        (LittleEndian.encode32 header.total ++ (LittleEndian.encode16 header.packets ++
          (LittleEndian.encode32 header.crc ++ bytes.byteAt 15 :: bytes.byteAt 16 ::
            bytes.drop 17))))
      rw [Kind.code_of_ofCode hkind, ← hid, ← htotal, ← hpackets, ← hcrc,
        ← Bytes.drop_eq_byteAt_cons (by omega), ← Bytes.drop_eq_byteAt_cons (by omega),
        ← LittleEndian.drop_eq_encode32 (by omega), ← LittleEndian.drop_eq_encode16 (by omega),
        ← LittleEndian.drop_eq_encode32 (by omega), ← LittleEndian.drop_eq_encode32 (by omega),
        ← Bytes.drop_eq_byteAt_cons (by omega), List.drop_zero]
    have hencode : header.encode
        = front ++ [bytes.byteAt 15, if bytes.byteAt 15 = 0 then 0 else bytes.byteAt 16] := by
      rw [← htarget.encodeTarget_eq]
      rfl
    rw [hencode, Bytes.byteAt_take (by decide), htake]
    split
    · rfl
    · rfl

end Datagram.Header

/-! ## Records -/

namespace Record

/-- A record says nothing in its two bytes behind the version. -/
theorem format : Format Layout.recordSize encode decode?
    (fun bytes => LittleEndian.word32At bytes 0 = magic)
    (fun bytes => (bytes.set 6 0).set 7 0) where
  length_encode := length_encode
  decode_encode := decode?_encode
  decode_take bytes h := by
    have hsize : Layout.recordSize = 32 := rfl
    have hid : FirmwareId.ofBytes ((bytes.take Layout.recordSize).drop 16)
        = .ofBytes (bytes.drop 16) := by
      rw [FirmwareId.ofBytes, FirmwareId.ofBytes]
      congr 1
      exact Bytes.padTo_drop_take
    rw [decode?, decode?, hid, LittleEndian.word32At_take (by decide),
      LittleEndian.word32At_take (by decide), LittleEndian.word32At_take (by decide),
      Bytes.byteAt_take (by decide), Bytes.byteAt_take (by decide)]
  exists_decode_iff bytes h := by
    rw [decode?]
    by_cases hmagic : LittleEndian.word32At bytes 0 = magic
    · rw [if_neg (not_not_intro hmagic)]
      exact iff_of_true ⟨_, rfl⟩ hmagic
    · rw [if_pos hmagic]
      exact iff_of_false (by simp) hmagic
  encode_decode bytes manifest h hdecode := by
    have hsize : Layout.recordSize = 32 := rfl
    rw [decode?] at hdecode
    by_cases hmagic : LittleEndian.word32At bytes 0 = magic
    · rw [if_neg (not_not_intro hmagic)] at hdecode
      rw [← Option.some.inj hdecode]
      -- The bytes are those of the record, but for the two that say nothing.
      have htake : bytes.take Layout.recordSize = LittleEndian.encode32 magic
          ++ (bytes.byteAt 4 :: bytes.byteAt 5 :: bytes.byteAt 6 :: bytes.byteAt 7 ::
            (LittleEndian.encode32 (LittleEndian.word32At bytes 8)
              ++ (LittleEndian.encode32 (LittleEndian.word32At bytes 12)
                ++ Bytes.padTo 16 (bytes.drop 16)))) := by
        refine Bytes.take_eq (by simp [hsize]) ?_
        rw [hsize]
        simp only [List.append_assoc, List.cons_append]
        rw [Bytes.padTo_drop (by omega), ← LittleEndian.drop_eq_encode32 (by omega),
          ← LittleEndian.drop_eq_encode32 (by omega), ← Bytes.drop_eq_byteAt_cons (by omega),
          ← Bytes.drop_eq_byteAt_cons (by omega), ← Bytes.drop_eq_byteAt_cons (by omega),
          ← Bytes.drop_eq_byteAt_cons (by omega), ← hmagic,
          ← LittleEndian.drop_eq_encode32 (by omega), List.drop_zero]
      rw [htake]
      rfl
    · rw [if_pos hmagic] at hdecode
      cases hdecode

end Record

/-! ## Jump requests -/

namespace JumpRequest

/-- One request is obeyed, whatever lies behind it. -/
theorem decode_eq_ok_iff {bytes : Bytes} {request : JumpRequest} :
    decode bytes = .ok request ↔ request = {} ∧ ∃ behind, bytes = request.encode ++ behind := by
  have hsize : encodedSize = 5 := rfl
  constructor
  · intro hdecode
    by_cases hshort : bytes.length < encodedSize
    · rw [decode, if_pos hshort] at hdecode
      cases hdecode
    rw [decode, if_neg hshort] at hdecode
    by_cases hother : LittleEndian.word32At bytes 0 ≠ agreedMagic ∨ bytes.byteAt 4 ≠ 1
    · rw [if_pos hother] at hdecode
      cases hdecode
    rw [if_neg hother] at hdecode
    obtain ⟨hmagic, hvalidation⟩ := not_or.1 hother
    rw [Decidable.not_not] at hmagic hvalidation
    rw [hmagic, hvalidation] at hdecode
    obtain rfl : ({} : JumpRequest) = request := Except.ok.inj hdecode
    refine ⟨rfl, bytes.drop 5, ?_⟩
    show bytes = (LittleEndian.encode32 agreedMagic ++ [1]) ++ bytes.drop 5
    rw [← hmagic, ← hvalidation, List.append_assoc, List.cons_append, List.nil_append,
      ← Bytes.drop_eq_byteAt_cons (by omega), ← LittleEndian.drop_eq_encode32 (by omega),
      List.drop_zero]
  · rintro ⟨rfl, behind, rfl⟩
    exact decode_encode behind

end JumpRequest

/-! ## Requests that go through -/

namespace Flash

variable {g : Geometry} {flash : Flash g} {offset : Nat}

theorem slice_of_read {length : Nat} {bytes : Bytes}
    (h : (flash.read offset length).1 = .ok bytes) : bytes = flash.slice offset length := by
  have hmemory := takeFault_memory flash .read
  simp only [read] at h
  split at h
  · cases h
  · split at h
    · cases h
    · rw [← Except.ok.inj h, slice_of_memory_eq hmemory]

/-- A write that goes through has put its bytes where they were to go. -/
theorem slice_of_write {bytes : Bytes} (hg : flash.glitch = none)
    (h : (flash.write offset bytes).1 = .ok ()) :
    (flash.write offset bytes).2.slice offset bytes.length = bytes := by
  -- Only a planned glitch has other bytes written than were given.
  have htaken : flash.takeGlitch bytes = (bytes, flash) := by
    rw [takeGlitch, hg]
  rw [write, htaken] at h ⊢
  cases hcheck : checkSlice g.capacity g.writeSize offset bytes.length with
  | error error =>
    simp only [hcheck] at h
    cases h
  | ok =>
    have hfits : offset + bytes.length ≤ g.capacity := by
      rw [checkSlice] at hcheck
      by_cases hout : bytes.length > g.capacity ∨ offset > g.capacity - bytes.length
      · rw [if_pos hout] at hcheck
        cases hcheck
      · omega
    simp only [hcheck] at h ⊢
    split at h
    · cases h
    · rename_i hgoes
      rw [if_neg hgoes]
      exact slice_patch_self rfl hfits

/-- A write that does not lie on whole units is refused, and changes nothing. -/
theorem write_not_aligned {bytes : Bytes} (hg : flash.glitch = none)
    (hfits : offset + bytes.length ≤ g.capacity)
    (halign : ¬(offset % g.writeSize = 0 ∧ bytes.length % g.writeSize = 0)) :
    flash.write offset bytes = (.error .notAligned, flash) := by
  have htaken : flash.takeGlitch bytes = (bytes, flash) := by
    rw [takeGlitch, hg]
  have hcheck : checkSlice g.capacity g.writeSize offset bytes.length = .error .notAligned := by
    rw [checkSlice, if_neg (by omega), if_pos (by omega)]
  rw [write, htaken]
  simp only [hcheck]

end Flash

namespace FlashTask

variable {g : Geometry} {flash : Flash g} {offset : Nat}

theorem ensures_read_slice (offset length : Nat) :
    (read offset length).Ensures flash (fun _ => True)
      (fun bytes _ => bytes = flash.slice offset length) (fun _ _ => True) := by
  intro jumper
  refine Procedure.ensures_read ⟨nofun, rfl, trivial⟩ ⟨nofun, rfl, ?_⟩
  cases hanswer : (flash.read offset length).1 with
  | error error => trivial
  | ok bytes => exact Flash.slice_of_read hanswer

theorem ensures_write_slice (offset : Nat) (bytes : Bytes) (hg : flash.glitch = none) :
    (write offset bytes).Ensures flash (fun _ => True)
      (fun _ after => after.slice offset bytes.length = bytes) (fun _ _ => True) := by
  intro jumper
  refine Procedure.ensures_write ⟨nofun, rfl, trivial⟩ ⟨nofun, rfl, ?_⟩
  cases hanswer : (flash.write offset bytes).1 with
  | error error => trivial
  | ok => exact Flash.slice_of_write hg hanswer

theorem ensures_erase_glitch (first last : Nat) (hg : flash.glitch = none) :
    (erase first last).Ensures flash (fun _ => True) (fun _ after => after.glitch = none)
      (fun _ _ => True) := by
  intro jumper
  refine Procedure.ensures_erase ⟨nofun, rfl, trivial⟩ ⟨nofun, rfl, ?_⟩
  cases hanswer : (flash.erase first last).1 with
  | error error => trivial
  | ok => exact Flash.erase_glitch hg first last

theorem ensures_write_not_aligned {bytes : Bytes} (hg : flash.glitch = none)
    (hfits : offset + bytes.length ≤ g.capacity)
    (halign : ¬(offset % g.writeSize = 0 ∧ bytes.length % g.writeSize = 0)) :
    (write offset bytes).Ensures flash (fun _ => True) (fun _ _ => False)
      (fun fault _ => fault = .flash .notAligned) := by
  intro jumper
  refine Procedure.ensures_write ⟨nofun, rfl, trivial⟩ ⟨nofun, rfl, ?_⟩
  rw [Flash.write_not_aligned hg hfits halign]
  rfl

theorem Ensures.and {α : Type} {task : FlashTask α} {during : Flash g → Prop}
    {ok ok' : α → Flash g → Prop} {err err' : Fault → Flash g → Prop}
    (h : task.Ensures flash during ok err) (h' : task.Ensures flash during ok' err') :
    task.Ensures flash during (fun a after => ok a after ∧ ok' a after)
      (fun fault after => err fault after ∧ err' fault after) := by
  intro jumper
  obtain ⟨hall, hjumper, hresult⟩ := h jumper
  obtain ⟨-, -, hresult'⟩ := h' jumper
  refine ⟨hall, hjumper, ?_⟩
  cases hrun : (task.run.run { flash, jumper }).1 with
  | ok a =>
    rw [hrun] at hresult hresult'
    exact ⟨hresult, hresult'⟩
  | error fault =>
    rw [hrun] at hresult hresult'
    exact ⟨hresult, hresult'⟩

theorem Ensures.run_eq {α : Type} {task : FlashTask α} {device : Device g} {during : Flash g → Prop}
    {outcome : Except Fault α}
    (h : task.Ensures device.flash during (fun a _ => .ok a = outcome)
      (fun fault _ => .error fault = outcome)) : (task.run.run device).1 = outcome := by
  obtain ⟨-, hresult⟩ := (h device.jumper).2
  cases hrun : (task.run.run device).1 with
  | ok a =>
    rw [hrun] at hresult
    exact hresult
  | error fault =>
    rw [hrun] at hresult
    exact hresult

end FlashTask

/-! ## Records on their page -/

namespace Record

variable {g : Geometry}

theorem run_load {device : Device g} {offset : Nat} (hg : device.flash.glitch = none)
    (hfault : device.flash.fault = none) (hfits : offset + Layout.recordSize ≤ g.capacity) :
    ((load offset).run.run device).1
      = .ok (decode? (device.flash.slice offset Layout.recordSize)) := by
  have hload : (load offset).Reads device.flash
      (decode? (device.flash.slice offset Layout.recordSize)) :=
    (FlashTask.read_reads offset Layout.recordSize hg hfits).bind
      fun _ hkept => FlashTask.reads_pure hkept.glitch_eq _
  exact hload.run_eq hfault

/-- Stores a record and reads the page. -/
def storeThenLoad (g : Geometry) (offset : Nat) (manifest : Manifest) :
    FlashTask (Option Manifest) := do
  store g offset manifest
  load offset

/-- Whatever fails, what is read back is what was stored. -/
theorem ensures_storeThenLoad {flash : Flash g} (hg : flash.glitch = none) (offset : Nat)
    (manifest : Manifest) : (storeThenLoad g offset manifest).Ensures flash (fun _ => True)
      (fun recorded _ => recorded = some manifest) (fun _ _ => True) := by
  have hstore : (store g offset manifest).Ensures flash (fun _ => True)
      (fun _ after => after.slice offset Layout.recordSize = encode manifest)
      (fun _ _ => True) := by
    -- What erasing leaves of the page does not matter, as the write says what it holds.
    refine (FlashTask.ensures_erase_glitch _ _ hg).bind fun _ mid hmid => ?_
    have hwrite := FlashTask.ensures_write_slice offset (encode manifest) hmid
    rwa [length_encode] at hwrite
  refine hstore.bind fun _ after hslice => ?_
  refine (FlashTask.ensures_read_slice offset Layout.recordSize).bind fun bytes flash' hbytes => ?_
  refine FlashTask.ensures_pure ?_
  have hwhole := decode?_encode manifest []
  rwa [List.append_nil, ← hslice, ← hbytes] at hwhole

/-- On a page that lies whole in a part the record is read back, unless the part writes in units
that the record does not lie on. -/
theorem run_storeThenLoad {device : Device g} {offset : Nat} (manifest : Manifest)
    (hg : device.flash.glitch = none) (hfault : device.flash.fault = none)
    (hle : Layout.recordSize ≤ g.eraseSize) (hfits : offset + g.eraseSize ≤ g.capacity)
    (hpage : g.eraseSize ∣ offset) :
    ((storeThenLoad g offset manifest).run.run device).1
      = if g.writeSize ∣ offset ∧ g.writeSize ∣ Layout.recordSize then .ok (some manifest)
        else .error (.flash .notAligned) := by
  refine FlashTask.Ensures.run_eq (?_ : FlashTask.Ensures _ _ (fun _ => True) _ _)
  by_cases halign : g.writeSize ∣ offset ∧ g.writeSize ∣ Layout.recordSize
  · rw [if_pos halign]
    -- Nothing fails, and so it is the record that comes out.
    have hgoes : (storeThenLoad g offset manifest).Ensures device.flash (fun _ => True)
        (fun _ _ => True) (fun _ _ => False) := by
      refine ((Page.ensures_store ⟨hle, hfits, hpage, halign.1, halign.2⟩ hg manifest).imp
        (fun _ _ => trivial) (fun _ _ h => h)
        fun fault _ h => absurd h.1 (FlashTask.not_failing hfault)).bind fun _ after hstored => ?_
      have hread := FlashTask.read_reads offset Layout.recordSize hstored.glitch_eq
        (Nat.le_trans (Nat.add_le_add_left hle offset) hfits)
      exact (FlashTask.Ensures.imp hread (fun _ _ => trivial) (fun _ _ h => h)
        fun fault _ h => absurd h.1 (FlashTask.not_failing (hstored.fault_eq hfault))).bind
          fun _ _ _ => FlashTask.ensures_pure trivial
    refine ((ensures_storeThenLoad hg offset manifest).and hgoes).imp (fun _ h => h) ?_ ?_
    · rintro recorded _ ⟨rfl, -⟩
      rfl
    · rintro fault _ ⟨-, hfalse⟩
      exact hfalse.elim
  · rw [if_neg halign]
    -- The page has been erased by then.
    have hrefused : (store g offset manifest).Ensures device.flash (fun _ => True)
        (fun _ _ => False) (fun fault _ => fault = .flash .notAligned) := by
      refine ((ensures_clear_at hg hpage hfits).imp (fun _ _ => trivial) (fun _ _ h => h)
        fun fault _ h => absurd h.1 (FlashTask.not_failing hfault)).bind fun _ mid hmid => ?_
      refine FlashTask.ensures_write_not_aligned hmid.glitch_eq
        (by rw [length_encode]; omega) ?_
      rwa [length_encode, ← Nat.dvd_iff_mod_eq_zero, ← Nat.dvd_iff_mod_eq_zero]
    exact (hrefused.imp (fun _ h => h) (fun _ _ h => h)
      fun fault _ h => by rw [h]).bind fun _ _ hfalse => hfalse.elim

end Record

/-! ## All four formats -/

/-- The header of a datagram, the manifest, the acknowledgement and the image record are read back
from what they are encoded as, and encoded as what they were read from; so is the one jump request
that is obeyed. On its page the record outlives whatever the page held before. -/
theorem formats_inverse :
    Format 17 Datagram.Header.encode (fun bytes => (Datagram.Header.decode bytes).toOption)
      (fun bytes => (bytes.byteAt 0).toNat ≤ 7 ∧ (bytes.byteAt 15).toNat ≤ 1)
      (fun bytes => if bytes.byteAt 15 = 0 then bytes.set 16 0 else bytes)
    ∧ Format 26 Manifest.encode (fun bytes => (Manifest.decode bytes).toOption)
      (fun _ => True) (fun bytes => bytes)
    ∧ Format 10 Acknowledgement.encode (fun bytes => (Acknowledgement.decode bytes).toOption)
      (fun bytes => (bytes.byteAt 0).toNat ≤ 1 ∧ (bytes.byteAt 1).toNat ≤ 7) (fun bytes => bytes)
    ∧ Format 32 Record.encode Record.decode?
      (fun bytes => LittleEndian.word32At bytes 0 = 0x41544F46)
      (fun bytes => (bytes.set 6 0).set 7 0)
    -- What is too short is refused.
    ∧ (∀ bytes : Bytes,
      (bytes.length < 17 → Datagram.Header.decode bytes = .error .invalidPacket)
        ∧ (bytes.length < 26 → Manifest.decode bytes = .error .invalidDatagram)
        ∧ (bytes.length < 10 → Acknowledgement.decode bytes = .error .invalidDatagram))
    ∧ (∀ bytes request, JumpRequest.decode bytes = .ok request ↔
      request = { magic := 0xDEADBEEF, validation := 1 }
        ∧ ∃ behind, bytes = request.encode ++ behind)
    -- The record on its page.
    ∧ ∀ (g : Geometry) (offset : Nat) (device : Device g), device.flash.glitch = none →
      (∀ manifest recorded,
        ((Record.storeThenLoad g offset manifest).run.run device).1 = .ok recorded →
          recorded = some manifest)
      ∧ (device.flash.fault = none → 32 ≤ g.eraseSize → offset + g.eraseSize ≤ g.capacity →
        g.eraseSize ∣ offset →
          ((Record.load offset).run.run device).1
            = .ok (Record.decode? (device.flash.slice offset 32))
          ∧ ∀ manifest, ((Record.storeThenLoad g offset manifest).run.run device).1
            = if g.writeSize ∣ offset ∧ g.writeSize ∣ 32 then .ok (some manifest)
              else .error (.flash .notAligned)) := by
  refine ⟨Datagram.Header.format, Manifest.format, Acknowledgement.format, Record.format,
    fun bytes => ⟨fun h => ?_, fun h => ?_, fun h => ?_⟩, fun bytes request => ?_,
    fun g offset device hg => ⟨fun manifest recorded hrun => ?_,
      fun hfault hle hfits hpage => ⟨?_, fun manifest => ?_⟩⟩⟩
  · exact if_pos h
  · exact if_pos h
  · exact if_pos h
  · exact JumpRequest.decode_eq_ok_iff
  · obtain ⟨-, hresult⟩ := (Record.ensures_storeThenLoad hg offset manifest device.jumper).2
    rw [hrun] at hresult
    exact hresult
  · exact Record.run_load hg hfault (Nat.le_trans (Nat.add_le_add_left hle offset) hfits)
  · exact Record.run_storeThenLoad manifest hg hfault hle hfits hpage

/-- A header with a stray node byte loses it; a page that holds an older record takes another. -/
theorem formats_inverse_rewritten :
    (∃ header, (Datagram.Header.decode
        [2, 7, 0, 0, 0, 5, 0, 0, 0, 1, 0, 1, 2, 3, 4, 0, 9, 0xEE]).toOption = some header
      ∧ header.encode = [2, 7, 0, 0, 0, 5, 0, 0, 0, 1, 0, 1, 2, 3, 4, 0, 0])
    ∧ ((Record.storeThenLoad ⟨4, 64, 256⟩ 64
        { size := 4000, crc := 0x11223344, major := 2, minor := 7 }).run.run
        { flash := ({} : Flash ⟨4, 64, 256⟩).preload 64
            (Record.encode { size := 4000, crc := 0 }) }).1
      = .ok (some { size := 4000, crc := 0x11223344, major := 2, minor := 7 }) := by
  obtain ⟨hheader, -, -, -, -, -, hrecord⟩ := formats_inverse
  constructor
  · obtain ⟨header, h⟩ := (hheader.exists_decode_iff
      [2, 7, 0, 0, 0, 5, 0, 0, 0, 1, 0, 1, 2, 3, 4, 0, 9, 0xEE] (by decide)).2 (by decide)
    exact ⟨header, h, hheader.encode_decode _ header (by decide) h⟩
  · obtain ⟨-, hpage⟩ := hrecord ⟨4, 64, 256⟩ 64
      { flash := ({} : Flash ⟨4, 64, 256⟩).preload 64
          (Record.encode { size := 4000, crc := 0 }) } rfl
    rw [(hpage rfl (by decide) (by decide) (by decide)).2, if_pos (by decide)]

end Reflash
