/-
  Reflash.Proofs.Delivery

  The datagrams of a session are the parts of an update, and a node takes them as
  they come: each of them once, in order. Another copy of the datagram taken last is
  refused without any effect, in a way that tells the session that it had been taken.
-/
import Reflash.Proofs.Install.Update
import Reflash.Proofs.Session

namespace Reflash

namespace Session

variable {session : Session}

/-! ## The datagrams of a session -/

/-- Image size and options with which an update can be carried out. -/
structure Feasible (session : Session) : Prop where
  valid : session.options.Valid
  pos : 0 < session.firmware.length
  lt : session.firmware.length < 0x100000000

/-- Each datagram of a session is made for data that fits into as many packets as a chunk. -/
theorem datagramAt_eq_pack (h : session.Feasible) (k : Nat) :
    ∃ kind id data, session.datagramAt k = .pack kind id session.options.target data
      ∧ 0 < data.length ∧ data.length ≤ Datagram.maxSize
      ∧ Datagram.packetsFor data.length ≤ Datagram.packetsFor session.options.chunkSize := by
  obtain ⟨hsize, hmax, -⟩ := h.valid
  have hsmall : ∀ {n : Nat}, n ≤ 128 →
      Datagram.packetsFor n ≤ Datagram.packetsFor session.options.chunkSize := by
    intro n hn
    rw [Datagram.packetsFor, Datagram.packetsFor]
    omega
  cases k with
  | zero =>
    refine ⟨_, _, session.manifest.encode, rfl, ?_⟩
    rw [Manifest.length_encode]
    exact ⟨by decide, by decide, hsmall (by decide)⟩
  | succ index =>
    by_cases hindex : index < session.chunkCount
    · refine ⟨_, _, session.chunk index, if_pos hindex, ?_⟩
      have hlength : (session.chunk index).length
          = min session.options.chunkSize
            (session.firmware.length - index * session.options.chunkSize) := by
        rw [chunk, List.length_take, List.length_drop]
      have hrest : index * session.options.chunkSize < session.firmware.length := by
        rw [chunkCount, Nat.lt_div_iff_mul_lt hsize] at hindex
        omega
      rw [hlength]
      refine ⟨by omega, by omega, ?_⟩
      rw [Datagram.packetsFor, Datagram.packetsFor]
      exact Nat.div_le_div_right (by omega)
    · refine ⟨_, _, JumpRequest.encode {}, if_neg hindex, ?_⟩
      exact ⟨by decide, by decide, hsmall (by decide)⟩

theorem datagramAt_whole (h : session.Feasible) (k : Nat) : (session.datagramAt k).Whole := by
  obtain ⟨kind, id, data, heq, hpos, hmax, -⟩ := datagramAt_eq_pack h k
  rw [heq]
  exact Datagram.pack_whole kind id _ hpos hmax

theorem target_datagramAt (h : session.Feasible) (k : Nat) :
    (session.datagramAt k).header.target = session.options.target := by
  obtain ⟨kind, id, data, heq, -⟩ := datagramAt_eq_pack h k
  rw [heq]
  rfl

theorem packetCount_datagramAt_le (h : session.Feasible) (k : Nat) :
    (session.datagramAt k).packetCount
      ≤ Datagram.packetsFor session.options.chunkSize + 1 := by
  obtain ⟨kind, id, data, heq, hpos, hmax, hfew⟩ := datagramAt_eq_pack h k
  rw [(datagramAt_whole h k).packetCount_eq, heq, Datagram.length_slots_pack]
  omega

/-! ## The parts of the update -/

/-- The datagrams from number `k` up to the last chunk. -/
def rest (session : Session) (k : Nat) : List Datagram :=
  (List.range' k (session.chunkCount + 1 - k)).map session.datagramAt

theorem rest_cons {k : Nat} (hk : k ≤ session.chunkCount) :
    session.rest k = session.datagramAt k :: session.rest (k + 1) := by
  rw [rest, show session.chunkCount + 1 - k = session.chunkCount + 1 - (k + 1) + 1 from by omega,
    List.range'_succ, List.map_cons, rest]

theorem rest_end {k : Nat} (hk : session.chunkCount < k) : session.rest k = [] := by
  rw [rest, Nat.sub_eq_zero_of_le hk]
  rfl

theorem length_pieces_firmware (h : session.Feasible) :
    (session.firmware.pieces session.options.chunkSize).length = session.chunkCount :=
  Bytes.length_pieces h.valid.1 _

theorem chunkCount_pos (h : session.Feasible) : 0 < session.chunkCount := by
  have hsize := h.valid.1
  have hpos := h.pos
  rw [chunkCount]
  exact Nat.div_pos (by omega) hsize

theorem chunkCount_le (session : Session) (h : session.Feasible) :
    session.chunkCount ≤ session.firmware.length := by
  have hsize := h.valid.1
  have hpos := h.pos
  rw [chunkCount, Nat.div_le_iff_le_mul hsize]
  have hmul := Nat.le_mul_of_pos_right session.firmware.length hsize
  omega

theorem id_chunkDatagram (h : session.Feasible) {index : Nat}
    (hindex : index < session.chunkCount) :
    (session.chunkDatagram index).id.toNat = index := by
  have hcount := chunkCount_le session h
  have hlt := h.lt
  show (UInt32.ofNat index).toNat = index
  rw [UInt32.toNat_ofNat']
  omega

theorem data_chunkDatagram (h : session.Feasible) (index : Nat) :
    (session.chunkDatagram index).data = session.chunk index := by
  refine Datagram.data_pack _ _ _ ?_
  rw [chunk, List.length_take]
  exact Nat.le_trans (Nat.min_le_left _ _) h.valid.2.1

/-- Datagram number `index + 1` carries piece `index` of the image. -/
theorem chunkDatagram_carries (h : session.Feasible) {index : Nat} {piece : Bytes}
    (hchunk : (session.firmware.pieces session.options.chunkSize)[index]? = some piece) :
    (session.chunkDatagram index).kind = .firmwareChunk
      ∧ (session.chunkDatagram index).id.toNat = index
      ∧ (session.chunkDatagram index).data = piece := by
  obtain ⟨hindex, -⟩ := List.getElem?_eq_some_iff.1 hchunk
  rw [Bytes.getElem?_pieces _ hindex] at hchunk
  rw [length_pieces_firmware h] at hindex
  refine ⟨rfl, id_chunkDatagram h hindex, ?_⟩
  rw [← Option.some.inj hchunk]
  exact data_chunkDatagram h index

/-- From number `k` on the chunks are carried in order. -/
theorem rest_carry (h : session.Feasible) {k : Nat} (hk : k ≤ session.chunkCount) :
    Datagram.Carry k ((session.firmware.pieces session.options.chunkSize).drop k)
      (session.rest (k + 1)) := by
  have hlength := length_pieces_firmware h
  obtain ⟨more, hmore⟩ := Nat.exists_eq_add_of_le hk
  induction more generalizing k with
  | zero =>
    obtain rfl : k = session.chunkCount := by omega
    rw [List.drop_eq_nil_of_le (by omega), rest_end (Nat.lt_succ_self _)]
    trivial
  | succ more ih =>
    have hlt : k < (session.firmware.pieces session.options.chunkSize).length := by omega
    rw [List.drop_eq_getElem_cons hlt, rest_cons (by omega), datagramAt, if_pos (by omega)]
    exact ⟨chunkDatagram_carries h (List.getElem?_eq_getElem hlt), ih (by omega) (by omega)⟩

theorem manifest_describes (h : session.Feasible) :
    session.manifest.Describes session.firmware := by
  have hlt := h.lt
  refine ⟨?_, Crc32.ofImage_eq_padded _⟩
  show (UInt32.ofNat session.firmware.length).toNat = session.firmware.length
  rw [UInt32.toNat_ofNat']
  omega

theorem manifestDatagram_announces (session : Session) :
    session.manifestDatagram.Announces session.manifest := by
  refine ⟨rfl, ?_⟩
  have hdecode := Manifest.decode_encode session.manifest []
  rw [List.append_nil] at hdecode
  rw [manifestDatagram, Manifest.toDatagram,
    Datagram.data_pack _ _ _ (by rw [Manifest.length_encode]; decide), hdecode]

theorem decode_jumpDatagram (session : Session) :
    JumpRequest.decode session.jumpDatagram.data = .ok {} := by
  have hdecode := JumpRequest.decode_encode []
  rw [List.append_nil] at hdecode
  rw [jumpDatagram, JumpRequest.toDatagram, Datagram.data_pack _ _ _ (by decide), hdecode]

variable {g : Geometry} {layout : Layout} {before : Flash g}

theorem chunked (h : session.Feasible) (hwrite : g.writeSize ∣ 4) :
    g.Chunked (session.firmware.pieces session.options.chunkSize) := by
  refine ⟨fun chunk hmem => Bytes.length_pos_of_mem_pieces hmem, ?_⟩
  intro chunk hmem
  rw [Bytes.length_of_mem_dropLast_pieces hmem]
  exact Nat.dvd_trans hwrite (Nat.dvd_of_mod_eq_zero h.valid.2.2)

/-- The update of a session, before it has begun. -/
theorem phase_waiting (h : session.Feasible) (hwrite : g.writeSize ∣ 4)
    (hglitch : before.glitch = none) :
    Update.Phase layout session.firmware session.manifest before .idle before
      (session.rest 0) := by
  rw [rest_cons (Nat.zero_le _)]
  exact .waiting (Flash.Kept.refl hglitch) session.manifestDatagram_announces
    (Bytes.flatten_pieces h.valid.1 _) (chunked h hwrite) (rest_carry h (Nat.zero_le _))

/-! ## A node that follows -/

/-- A node has taken the first `taken` datagrams of the update of `session`, which began on
`before`, and has jumped nowhere. -/
structure Followed (session : Session) (layout : Layout) (before : Flash g) (taken : Nat)
    (installer : Installer) (device : Device g) : Prop where
  phase : ∃ stage, installer = .ready layout stage
    ∧ Update.Phase layout session.firmware session.manifest before stage device.flash
      (session.rest taken)
  calm : device.jumper = {}

theorem datagramAt_chunk {index : Nat} (hindex : index < session.chunkCount) :
    session.datagramAt (index + 1) = session.chunkDatagram index :=
  if_pos hindex

/-- A node that waits for chunk `k` refuses datagram `k`: another announcement comes at the wrong
time, and any chunk before that one out of order. -/
theorem respond_copy_receiving (h : session.Feasible) {k : Nat} (hk : k ≤ session.chunkCount)
    (manifest : Manifest) (written : Nat) :
    ∃ fault, RefusesCopy k fault
      ∧ Installer.respond g layout (.receiving manifest written k) (session.datagramAt k)
        = pure (.error fault, .receiving manifest written k) := by
  cases k with
  | zero => exact ⟨.bootloaderInvalidState, .inl rfl, rfl⟩
  | succ previous =>
    have hother : (session.chunkDatagram previous).id.toNat ≠ previous + 1 := by
      rw [id_chunkDatagram h hk]
      exact Nat.ne_of_lt (Nat.lt_succ_self previous)
    have hrefuse : Installer.refuseChunk g manifest written (previous + 1)
        (session.chunkDatagram previous) = some .sequenceOutOfOrder := if_pos hother
    refine ⟨.sequenceOutOfOrder, .inr ⟨Nat.succ_pos _, rfl⟩, ?_⟩
    rw [datagramAt_chunk hk]
    show Installer.acceptChunk g layout manifest written (previous + 1)
      (session.chunkDatagram previous) = _
    rw [Installer.acceptChunk, hrefuse]

/-- A node that has the whole image refuses the last chunk. -/
theorem respond_copy_finished (h : session.Feasible) {stage : Stage} {manifest : Manifest}
    (hstage : stage = .complete manifest ∨ stage = .installed manifest) :
    Installer.respond g layout stage (session.datagramAt session.chunkCount)
      = pure (.error .bootloaderInvalidState, stage) := by
  obtain ⟨last, hlast⟩ := Nat.exists_eq_add_one_of_ne_zero (Nat.ne_of_gt (chunkCount_pos h))
  rw [hlast, datagramAt_chunk (by omega)]
  rcases hstage with rfl | rfl <;> rfl

/-- Another copy of the datagram taken last is refused, and nothing changes. -/
theorem respond_copy (h : session.Feasible) {k : Nat} (hk : k ≤ session.chunkCount) {stage : Stage}
    {flash : Flash g}
    (hphase : Update.Phase layout session.firmware session.manifest before stage flash
      (session.rest (k + 1))) :
    ∃ fault, Session.RefusesCopy k fault
      ∧ Installer.respond g layout stage (session.datagramAt k) = pure (.error fault, stage) := by
  rcases Nat.eq_or_lt_of_le hk with rfl | hlt
  · -- The last chunk has finished the update.
    rw [rest_end (Nat.lt_succ_self _)] at hphase
    obtain ⟨rfl, -⟩ := hphase.finished_of_nil (manifest_describes h)
    exact ⟨.bootloaderInvalidState, .inl rfl, respond_copy_finished h (.inr rfl)⟩
  · -- The node waits for chunk `k`.
    rw [rest_cons hlt, datagramAt_chunk hlt] at hphase
    cases hphase with
    | waiting kept announces whole chunked carry => exact absurd announces.1 nofun
    | @taking _ written index chunks _ changed backed staged rest chunked carry =>
      cases chunks with
      | nil => exact carry.elim
      | cons chunk chunks =>
        obtain ⟨⟨-, hid, -⟩, -⟩ := carry
        obtain rfl := (id_chunkDatagram h hlt).symm.trans hid
        exact respond_copy_receiving h hk session.manifest written

/-- A datagram whose turn it is is taken, and a copy of the one taken last is refused. Either way
the node has taken all up to this one. -/
theorem Followed.process (hg : layout.Paged g) (hu : layout.Usable g) (h : session.Feasible)
    (hregion : session.firmware.length ≤ layout.regionSize) (hcalm : before.fault = none)
    {k taken : Nat} (hk : k ≤ session.chunkCount) {installer : Installer} {device : Device g}
    (hfollowed : session.Followed layout before taken installer device)
    (htaken : taken = k ∨ taken = k + 1) :
    let outcome := (installer.process g (session.datagramAt k)).run device
    session.Followed layout before (k + 1) outcome.1.2 outcome.2
      ∧ (outcome.1.1 = .ok ()
        ∨ taken = k + 1 ∧ ∃ fault, outcome.1.1 = .error fault ∧ RefusesCopy k fault) := by
  obtain ⟨⟨stage, rfl, hphase⟩, hjumper⟩ := hfollowed
  have hfits : Update.Fits layout session.firmware session.manifest := by
    have hdescribes := manifest_describes h
    exact ⟨hdescribes, by rw [hdescribes.1]; exact h.pos, by rw [hdescribes.1]; exact hregion⟩
  intro outcome
  have houtcome : outcome = (((((Installer.respond g layout stage (session.datagramAt k)).run
        device).1.1, .ready layout
          ((Installer.respond g layout stage (session.datagramAt k)).run device).1.2),
      ((Installer.respond g layout stage (session.datagramAt k)).run device).2)) := by
    show (Installer.process g (.ready layout stage) _).run device = _
    rw [Installer.process_ready, Procedure.run_bind]
    rfl
  rw [houtcome]
  rcases htaken with rfl | rfl
  · -- The node had not taken it yet.
    rw [rest_cons hk] at hphase
    obtain ⟨hok, hkept, hnext⟩ := (hphase.part hg hu hfits hcalm).2
    exact ⟨⟨⟨_, rfl, hnext⟩, hkept.trans hjumper⟩, .inl hok⟩
  · -- It had, but the answer was lost.
    obtain ⟨fault, hfault, hrespond⟩ := respond_copy h hk hphase
    rw [hrespond]
    exact ⟨⟨⟨stage, rfl, hphase⟩, hjumper⟩, .inr ⟨rfl, fault, rfl, hfault⟩⟩

/-! ## The jump -/

/-- A node that has taken all of an update has installed the image. -/
theorem Followed.finished (h : session.Feasible) {taken : Nat} {installer : Installer}
    {device : Device g} (hfollowed : session.Followed layout before taken installer device)
    (htaken : session.chunkCount < taken) :
    installer = .ready layout (.installed session.manifest)
      ∧ Update.Finished layout session.firmware session.manifest before device.flash := by
  obtain ⟨⟨stage, rfl, hphase⟩, -⟩ := hfollowed
  rw [rest_end htaken] at hphase
  obtain ⟨rfl, hfinished⟩ := hphase.finished_of_nil (manifest_describes h)
  exact ⟨rfl, hfinished⟩

theorem Followed.slice_eq (hu : layout.Usable g) (h : session.Feasible) {taken : Nat}
    {installer : Installer} {device : Device g}
    (hfollowed : session.Followed layout before taken installer device)
    (htaken : session.chunkCount < taken) :
    device.flash.slice layout.active session.firmware.length = session.firmware := by
  obtain ⟨-, hfinished⟩ := hfollowed.finished h htaken
  rw [← Flash.slice_take _ _ (Pages.le_span hu.page_pos _), hfinished.slice_eq, List.take_left]

/-- The jump request makes it jump to the image, once, unless the image is blank. -/
theorem Followed.jump (hu : layout.Usable g) (h : session.Feasible)
    (hregion : session.firmware.length ≤ layout.regionSize) (hcalm : before.fault = none)
    {taken : Nat} {installer : Installer} {device : Device g}
    (hfollowed : session.Followed layout before taken installer device)
    (htaken : session.chunkCount < taken) :
    ((installer.process g session.jumpDatagram).run device).2.jumper.jumps
      = if session.firmware.all (· == Flash.erasedByte) = true then [] else [.application] := by
  have hslice := hfollowed.slice_eq hu h htaken
  obtain ⟨rfl, hfinished⟩ := hfollowed.finished h htaken
  have hsize := (manifest_describes h).1
  have hjumper := hfollowed.calm
  have hdecode := decode_jumpDatagram session
  have hrespond : Installer.respond g layout (.installed session.manifest) session.jumpDatagram
      = Installer.leave layout session.manifest >>= fun fault =>
        pure (.error fault, .installed session.manifest) := by
    show Installer.acceptJump g layout _ _ = _
    rw [Installer.acceptJump, hdecode]
  have hfits : session.manifest.size.toNat ≤ layout.regionSize := by
    rw [hsize]
    exact hregion
  -- What is looked at before the jump is the image, since that is what the active region holds.
  have hleave := (Installer.ensures_leave hu hfits hfinished.changed.glitch_eq).2
  obtain ⟨⟨fault, device'⟩, hrun⟩ :
      ∃ outcome, (Installer.leave layout session.manifest).run device = outcome := ⟨_, rfl⟩
  rw [hrun] at hleave
  rw [Installer.process_ready, hrespond, Procedure.run_bind, Procedure.run_bind, hrun]
  show device'.jumper.jumps = _
  cases hleave with
  | jumped kept written jumper_eq =>
    rw [hsize, hslice] at written
    rw [jumper_eq, hjumper, written]
    rfl
  | blank kept blank jumper_eq =>
    rw [hsize, hslice] at blank
    rw [jumper_eq, hjumper, if_pos blank]
  | failed kept failing =>
    exact absurd failing (FlashTask.not_failing (hfinished.changed.fault_eq hcalm))

end Session

end Reflash
