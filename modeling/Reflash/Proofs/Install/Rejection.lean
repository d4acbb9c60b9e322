/-
  Reflash.Proofs.Install.Rejection

  What a datagram that fails leaves behind, wherever the update is and whatever the
  device does. A rejection comes before anything is asked of the device, so that
  nothing at all has changed. Behind that point three things fail: room for an image
  that is not cleared leaves the node idle, a chunk that is not programmed to its end
  gives up the image and has touched only the whole writes that it fills, and an
  installation that fails behind the last chunk keeps the complete image.
-/
import Reflash.Board
import Reflash.Proofs.Install.Inspection

namespace Reflash

/-! ## Faults of a rejection, and faults of the part -/

namespace Fault

/-- The fault of a datagram that is turned away before anything is done for it. -/
def IsRejection (fault : Fault) : Prop :=
  fault = .bootloaderUninitialized ∨ Installer.IsRefusal fault

/-- The part has failed, or does not hold what it should. -/
def OfFlash (fault : Fault) : Prop :=
  fault = .flashVerificationFailed ∨ ∃ cause, fault = .flash cause

theorem OfFlash.not_isRejection {fault : Fault} (h : fault.OfFlash) : ¬fault.IsRejection := by
  rw [IsRejection, Installer.IsRefusal]
  rcases h with rfl | ⟨cause, rfl⟩ <;> simp

theorem not_isRejection_bootloaderFailure : ¬IsRejection .bootloaderFailure := by
  simp [IsRejection, Installer.IsRefusal]

end Fault

/-- Whatever a part answers, the task blames the part when it fails. -/
def FlashTask.BlamesFlash {α : Type} (task : FlashTask α) : Prop :=
  task.run.Asks (fun _ => True) fun outcome => ∀ fault, outcome = .error fault → fault.OfFlash

namespace FlashTask

variable {α β : Type}

theorem blamesFlash_pure (a : α) : (pure a : FlashTask α).BlamesFlash := nofun

theorem Inspects.blamesFlash {task : FlashTask α} (h : task.Inspects) : task.BlamesFlash :=
  Procedure.Asks.imp h (fun _ _ => trivial) fun _ hfault => hfault

theorem Physical.blamesFlash {task : FlashTask α} (h : task.Physical) : task.BlamesFlash :=
  Procedure.Asks.imp h (fun _ _ => trivial) fun _ hfault fault heq => .inr (hfault fault heq)

theorem BlamesFlash.bind {task : FlashTask α} {next : α → FlashTask β} (h : task.BlamesFlash)
    (hnext : ∀ a, (next a).BlamesFlash) : (task >>= next).BlamesFlash := by
  refine Procedure.Asks.bind h fun outcome hfault => ?_
  cases outcome with
  | ok a => exact hnext a
  | error fault =>
    rintro fault' ⟨⟩
    exact hfault fault rfl

end FlashTask

/-- A procedure that asks for no jump leaves the noted jumps alone. -/
theorem Procedure.Asks.jumper_eq {α : Type} {g : Geometry} {result : α → Prop}
    {procedure : Procedure α}
    (h : procedure.Asks (fun request => ∀ target, request ≠ .jump target) result)
    (device : Device g) : (procedure.run device).2.jumper = device.jumper := by
  induction procedure generalizing device with
  | done a => rfl
  | read offset length next ih => exact ih _ (h.after_read device.flash) _
  | write offset bytes next ih => exact ih _ (h.2 _) _
  | erase first last next ih => exact ih _ (h.2 _) _
  | jump target next ih => exact absurd rfl (h.1 target)

open FlashTask (BlamesFlash blamesFlash_pure)

theorem Pages.copyPieces_blamesFlash (source destination : Nat) (pieces : List (Nat × Nat)) :
    (copyPieces source destination pieces).BlamesFlash := by
  induction pieces with
  | nil => exact blamesFlash_pure _
  | cons piece pieces ih =>
    exact (FlashTask.read_inspects _ _).blamesFlash.bind fun _ =>
      (FlashTask.write_physical _ _).blamesFlash.bind fun _ => ih

theorem Pages.copy_blamesFlash (g : Geometry) (source destination length : Nat) :
    (copy g source destination length).BlamesFlash := by
  rw [copy]
  generalize cut g.eraseSize 0 length = pages
  induction pages with
  | nil => exact blamesFlash_pure _
  | cons page pages ih =>
    exact (FlashTask.erase_physical _ _).blamesFlash.bind fun _ =>
      (copyPieces_blamesFlash _ _ _).bind fun _ => ih

namespace Installer

variable {g : Geometry} {layout : Layout} {device : Device g}

theorem checkImage_blamesFlash (offset : Nat) (manifest : Manifest) :
    (checkImage offset manifest).BlamesFlash := by
  refine (Pages.crc_inspects _ _).blamesFlash.bind fun crc => ?_
  split
  · exact FlashTask.inspects_throw.blamesFlash
  · exact blamesFlash_pure _

/-- An installation that fails blames the part, whatever it was doing. -/
theorem finalize_blamesFlash (g : Geometry) (layout : Layout) (manifest : Manifest) :
    (finalize g layout manifest).BlamesFlash := by
  have hclear : (clearRecord g layout).BlamesFlash := by
    rw [clearRecord]
    cases layout.record? with
    | none => exact blamesFlash_pure _
    | some offset => exact (FlashTask.erase_physical _ _).blamesFlash
  have hstore : (storeRecord g layout manifest).BlamesFlash := by
    rw [storeRecord]
    cases layout.record? with
    | none => exact blamesFlash_pure _
    | some offset =>
      exact (FlashTask.erase_physical _ _).blamesFlash.bind fun _ =>
        (FlashTask.write_physical _ _).blamesFlash
  rw [finalize_eq]
  exact (checkImage_blamesFlash _ _).bind fun _ => hclear.bind fun _ =>
    (Pages.copy_blamesFlash _ _ _ _).bind fun _ => (checkImage_blamesFlash _ _).bind fun _ => hstore

/-! ## Rejected before anything is asked -/

/-- The answer is not a rejection. -/
def NotRejected (outcome : Except Fault Unit × Stage) : Prop :=
  ∀ fault, outcome.1 = .error fault → ¬fault.IsRejection

theorem notRejected_ok (stage : Stage) : NotRejected (.ok (), stage) := nofun

theorem notRejected_of_not {fault : Fault} (h : ¬fault.IsRejection) (stage : Stage) :
    NotRejected (.error fault, stage) := by
  rintro fault' ⟨⟩
  exact h

theorem leave_notRejected (layout : Layout) (manifest : Manifest) (stage : Stage) :
    (leave layout manifest >>= fun fault =>
      (pure (.error fault, stage) : Procedure (Except Fault Unit × Stage))).Asks (fun _ => True)
      NotRejected := by
  have hleave : (leave layout manifest).Asks (fun _ => True) fun fault =>
      ¬fault.IsRejection := by
    refine Procedure.Asks.bind (Pages.isBlank_inspects _ _).blamesFlash fun outcome hfault => ?_
    match outcome with
    | .error fault => exact (hfault fault rfl).not_isRejection
    | .ok true => exact Fault.OfFlash.not_isRejection (.inl rfl)
    | .ok false => exact ⟨trivial, Fault.not_isRejection_bootloaderFailure⟩
  exact hleave.bind fun fault hnot => notRejected_of_not hnot stage

/-- A datagram is rejected in `stage` before anything is asked of the device, or not at all. -/
def RejectsFirst (stage : Stage) (answer : Procedure (Except Fault Unit × Stage)) : Prop :=
  (∃ fault, answer = pure (.error fault, stage)) ∨ answer.Asks (fun _ => True) NotRejected

theorem acceptManifest_rejectsFirst (g : Geometry) (layout : Layout) (data : Bytes) :
    RejectsFirst .idle (acceptManifest g layout data) := by
  rw [acceptManifest]
  cases Manifest.decode data with
  | error fault => exact .inl ⟨fault, rfl⟩
  | ok manifest =>
    by_cases hsize : manifest.size = 0 ∨ manifest.size.toNat > layout.regionSize
    · exact .inl ⟨.binaryOversized, if_pos hsize⟩
    · right
      simp only [if_neg hsize]
      refine Procedure.Asks.bind (FlashTask.erase_physical _ _).blamesFlash ?_
      intro outcome hfault
      cases outcome with
      | ok _ => exact notRejected_ok _
      | error fault => exact notRejected_of_not (hfault fault rfl).not_isRejection _

theorem acceptChunk_rejectsFirst (g : Geometry) (layout : Layout) (manifest : Manifest)
    (written chunks : Nat) (datagram : Datagram) :
    RejectsFirst (.receiving manifest written chunks)
      (acceptChunk g layout manifest written chunks datagram) := by
  rw [acceptChunk]
  cases refuseChunk g manifest written chunks datagram with
  | some fault => exact .inl ⟨fault, rfl⟩
  | none =>
    right
    refine Procedure.Asks.bind (writeChunk_physical _ _ _).blamesFlash ?_
    intro outcome hfault
    cases outcome with
    | error fault => exact notRejected_of_not (hfault fault rfl).not_isRejection _
    | ok _ =>
      show Procedure.Asks _ _
        (if written + datagram.data.length ≠ manifest.size.toNat then _ else _)
      split
      · exact notRejected_ok _
      · refine Procedure.Asks.bind (finalize_blamesFlash g layout manifest) ?_
        intro outcome hfault
        cases outcome with
        | ok _ => exact notRejected_ok _
        | error fault => exact notRejected_of_not (hfault fault rfl).not_isRejection _

/-- What of a jump request is not refused at once has to do with an image in flash. -/
theorem acceptJump_rejectsFirst (g : Geometry) (layout : Layout) (stage : Stage) (data : Bytes) :
    RejectsFirst stage (acceptJump g layout stage data) := by
  simp only [acceptJump]
  cases JumpRequest.decode data with
  | error fault => exact .inl ⟨fault, rfl⟩
  | ok request =>
    cases stage with
    | idle => exact .inl ⟨_, rfl⟩
    | receiving manifest written chunks => exact .inl ⟨_, rfl⟩
    | complete manifest =>
      right
      refine Procedure.Asks.bind (finalize_blamesFlash g layout manifest) ?_
      intro outcome hfault
      cases outcome with
      | ok _ => exact leave_notRejected layout manifest _
      | error fault => exact notRejected_of_not (hfault fault rfl).not_isRejection _
    | installed manifest => exact .inr (leave_notRejected layout manifest _)

theorem respond_rejectsFirst (g : Geometry) (layout : Layout) (stage : Stage)
    (datagram : Datagram) : RejectsFirst stage (respond g layout stage datagram) := by
  simp only [respond]
  split
  · exact acceptJump_rejectsFirst g layout _ _
  · exact acceptManifest_rejectsFirst g layout _
  · exact acceptChunk_rejectsFirst g layout _ _ _ _
  · exact .inl ⟨_, rfl⟩

/-- A rejected datagram leaves the update and the device as they were. -/
theorem process_rejected {installer : Installer} {datagram : Datagram} {fault : Fault}
    (hresult : ((process g installer datagram).run device).1.1 = .error fault)
    (hrejection : fault.IsRejection) :
    ((process g installer datagram).run device).1.2 = installer
      ∧ ((process g installer datagram).run device).2 = device := by
  cases installer with
  | uninitialized => exact ⟨rfl, rfl⟩
  | ready layout stage =>
    rw [process_run] at hresult ⊢
    rcases respond_rejectsFirst g layout stage datagram with ⟨_, heq⟩ | hnot
    · rw [heq]
      exact ⟨rfl, rfl⟩
    · exact absurd hrejection ((hnot.ensures device).2 fault hresult)

/-! ## Announcements that fail -/

theorem acceptManifest_failed (g : Geometry) (layout : Layout) (data : Bytes) :
    (acceptManifest g layout data).Asks (fun _ => True) fun outcome =>
      ∀ fault, outcome.1 = .error fault → outcome.2 = .idle := by
  rw [acceptManifest]
  cases Manifest.decode data with
  | error fault => exact fun _ _ => rfl
  | ok manifest =>
    show Procedure.Asks _ _ (if manifest.size = 0 ∨ manifest.size.toNat > layout.regionSize then _
      else _)
    split
    · exact fun _ _ => rfl
    · refine Procedure.Asks.bind (FlashTask.erase_physical _ _) fun outcome _ => ?_
      cases outcome with
      | ok _ => exact fun _ h => by cases h
      | error fault => exact fun _ _ => rfl

/-- An announcement that fails changes nothing in the update. Only when it comes to an idle node
can it fail for anything but what it is. -/
theorem process_announcement_failed {installer : Installer} {datagram : Datagram} {fault : Fault}
    (hkind : datagram.kind = .firmwareMetadata)
    (hresult : ((process g installer datagram).run device).1.1 = .error fault) :
    ((process g installer datagram).run device).1.2 = installer
      ∧ ((∃ layout, installer = .ready layout .idle) ∨ fault.IsRejection) := by
  cases installer with
  | uninitialized =>
    cases hresult
    exact ⟨rfl, .inr (.inl rfl)⟩
  | ready layout stage =>
    rw [process_run] at hresult ⊢
    simp only [respond, hkind] at hresult ⊢
    cases stage with
    | idle =>
      have hidle := ((acceptManifest_failed g layout datagram.data).ensures device).2 fault hresult
      exact ⟨congrArg _ hidle, .inl ⟨layout, rfl⟩⟩
    | _ =>
      cases hresult
      exact ⟨rfl, .inr (.inr (.inl rfl))⟩

/-! ## Chunks that fail -/

/-- The bytes that the whole writes of a chunk take, the last of them filled up. -/
def paddedLength (g : Geometry) (data : Bytes) : Nat :=
  wholeWrites g data + if wholeWrites g data < data.length then g.writeSize else 0

theorem dvd_paddedLength (g : Geometry) (data : Bytes) : g.writeSize ∣ paddedLength g data := by
  refine Nat.dvd_add (dvd_wholeWrites g data) ?_
  split <;> simp

theorem le_paddedLength (hwrite : 0 < g.writeSize) (data : Bytes) :
    data.length ≤ paddedLength g data := by
  have hbehind := length_behind_wholeWrites hwrite data
  rw [List.length_drop] at hbehind
  rw [paddedLength]
  split <;> omega

/-- Room in whole writes that holds a chunk holds it filled up, too. -/
theorem paddedLength_le {data : Bytes} {room : Nat} (hwhole : g.writeSize ∣ room)
    (hroom : data.length ≤ room) : paddedLength g data ≤ room := by
  have hle := wholeWrites_le g data
  rw [paddedLength]
  split
  · next hmore =>
    -- Behind the whole writes there is room, and that is at least one write.
    have hone : g.writeSize ≤ room - wholeWrites g data :=
      Nat.le_of_dvd (by omega) (Nat.dvd_sub hwhole (dvd_wholeWrites g data))
    omega
  · omega

/-- The place of a chunk that is programmed from `offset` on. -/
def chunkExtent (g : Geometry) (offset : Nat) (data : Bytes) : Extent :=
  ⟨offset, offset + paddedLength g data⟩

/-- However far a chunk is programmed, nothing outside its place is touched. -/
theorem writeChunk_sameOutside (hu : layout.Usable g) (offset : Nat) (data : Bytes)
    (device : Device g) :
    Flash.SameOutside [chunkExtent g offset data] device.flash
      ((writeChunk g offset data).run.run device).2.flash := by
  have hasks : (writeChunk g offset data).Asks
      (Request.Within [] [chunkExtent g offset data]) fun _ => True :=
    writeChunk_asks hu List.mem_cons_self data ⟨Nat.le_refl _, Nat.le_refl _⟩
      (dvd_paddedLength g data) (le_paddedLength hu.write_pos data)
  exact (Procedure.Asks.sameOutside hasks device).2

/-- Programming a chunk jumps nowhere. -/
theorem writeChunk_jumper (g : Geometry) (offset : Nat) (data : Bytes) (device : Device g) :
    ((writeChunk g offset data).run.run device).2.jumper = device.jumper := by
  have hfront : (writeFront g offset data).Asks (fun request => ∀ target, request ≠ .jump target)
      fun _ => True := by
    rw [writeFront]
    split
    · exact ⟨by simp, fun _ _ _ => trivial⟩
    · exact FlashTask.asks_pure trivial
  have hasks : (writeChunk g offset data).Asks (fun request => ∀ target, request ≠ .jump target)
      fun _ => True := by
    rw [writeChunk_eq]
    refine hfront.bind fun _ _ => ?_
    rw [writeTail]
    split
    · exact ⟨by simp, fun _ _ _ => trivial⟩
    · exact FlashTask.asks_pure trivial
  exact Procedure.Asks.jumper_eq hasks device

variable {manifest : Manifest} {written chunks : Nat} {datagram : Datagram}

/-- The place of a chunk that is not refused lies in the staging region. -/
theorem chunkExtent_within (hu : layout.Usable g) (hpage : g.writeSize ∣ g.eraseSize)
    (hrange : (Stage.receiving manifest written chunks).InRange g layout)
    (hrefuse : refuseChunk g manifest written chunks datagram = none) :
    (chunkExtent g (layout.staging + written) datagram.data).last
      ≤ layout.stagingExtent.last := by
  obtain ⟨hadmits, hlt, hdvd⟩ := hrange
  obtain ⟨-, -, hroom, -⟩ := (refuseChunk_eq_none_iff (Nat.le_of_lt hlt)).1 hrefuse
  have hfits := hadmits.2
  have hregion := Nat.dvd_trans hpage hu.page_dvd_region
  have hpadded := paddedLength_le (Nat.dvd_sub hregion hdvd)
    (show datagram.data.length ≤ layout.regionSize - written by omega)
  simp only [chunkExtent, Layout.stagingExtent]
  omega

/-- A chunk that is not programmed to its end gives up the image, and that is all. -/
theorem acceptChunk_abandoned {fault : Fault}
    (hrefuse : refuseChunk g manifest written chunks datagram = none)
    (hwrite : ((writeChunk g (layout.staging + written) datagram.data).run.run device).1
      = .error fault) :
    (acceptChunk g layout manifest written chunks datagram).run device
      = ((.error fault, .idle),
        ((writeChunk g (layout.staging + written) datagram.data).run.run device).2) := by
  rw [acceptChunk, hrefuse]
  simp only [Procedure.run_bind, hwrite, Procedure.run_pure]

/-- Once the last chunk is programmed, a failure leaves the image complete. -/
theorem acceptChunk_unfinished {fault : Fault}
    (hrefuse : refuseChunk g manifest written chunks datagram = none)
    (hwrite : ((writeChunk g (layout.staging + written) datagram.data).run.run device).1 = .ok ())
    (hlast : written + datagram.data.length = manifest.size.toNat)
    (hresult : ((acceptChunk g layout manifest written chunks datagram).run device).1.1
      = .error fault) :
    ((acceptChunk g layout manifest written chunks datagram).run device).1.2
      = .complete manifest := by
  rw [acceptChunk, hrefuse] at hresult ⊢
  simp only [Procedure.run_bind, hwrite, hlast, ne_eq, not_true_eq_false, if_false] at hresult ⊢
  split at hresult
  · rfl
  · cases hresult

/-! ## Wherever an update can be -/

/-- The states that configuring and handling datagrams lead to, whatever devices they are handled
on. -/
inductive Reachable (g : Geometry) : Installer → Prop
  | uninitialized : Reachable g .uninitialized
  | configured {installer : Installer} (before : Reachable g installer) (layout : Layout) :
      Reachable g (installer.configure g layout).2
  | processed {installer : Installer} (before : Reachable g installer) (datagram : Datagram)
      (device : Device g) : Reachable g ((process g installer datagram).run device).1.2

/-- A state that can be reached keeps to a usable layout. -/
def Kept (g : Geometry) (installer : Installer) : Prop :=
  ∀ layout stage, installer = .ready layout stage → layout.Usable g ∧ stage.InRange g layout

theorem acceptChunk_inRange (hrange : (Stage.receiving manifest written chunks).InRange g layout) :
    (acceptChunk g layout manifest written chunks datagram).Asks (fun _ => True)
      fun outcome => outcome.2.InRange g layout := by
  obtain ⟨hadmits, hlt, hdvd⟩ := hrange
  rw [acceptChunk]
  cases hrefuse : refuseChunk g manifest written chunks datagram with
  | some fault => exact ⟨hadmits, hlt, hdvd⟩
  | none =>
    refine (Procedure.asks_trivial _).bind fun outcome _ => ?_
    cases outcome with
    | error fault => trivial
    | ok _ =>
      show Procedure.Asks _ _
        (if written + datagram.data.length ≠ manifest.size.toNat then _ else _)
      split
      · next hmore => exact inRange_taken hadmits hlt hdvd hrefuse hmore
      · refine (Procedure.asks_trivial _).bind fun outcome _ => ?_
        cases outcome with
        | ok _ => exact hadmits
        | error fault => exact hadmits

theorem acceptJump_inRange {stage : Stage} (hrange : stage.InRange g layout) (data : Bytes) :
    (acceptJump g layout stage data).Asks (fun _ => True)
      fun outcome => outcome.2.InRange g layout := by
  simp only [acceptJump]
  cases JumpRequest.decode data with
  | error fault => exact hrange
  | ok request =>
    cases stage with
    | idle => exact hrange
    | receiving manifest written chunks => exact hrange
    | complete manifest =>
      refine (Procedure.asks_trivial _).bind fun outcome _ => ?_
      cases outcome with
      | ok _ => exact (Procedure.asks_trivial _).bind fun _ _ => hrange
      | error fault => exact hrange
    | installed manifest => exact (Procedure.asks_trivial _).bind fun _ _ => hrange

theorem respond_inRange (hu : layout.Usable g) {stage : Stage} (hrange : stage.InRange g layout)
    (datagram : Datagram) :
    (respond g layout stage datagram).Asks (fun _ => True)
      fun outcome => outcome.2.InRange g layout := by
  simp only [respond]
  split
  · exact acceptJump_inRange hrange _
  · exact (acceptManifest_asks hu _).imp (fun _ _ => trivial) fun _ => id
  · exact acceptChunk_inRange hrange
  · exact hrange

theorem Kept.processed {installer : Installer} (h : Kept g installer) (datagram : Datagram)
    (device : Device g) : Kept g ((process g installer datagram).run device).1.2 := by
  cases installer with
  | uninitialized => exact nofun
  | ready layout stage =>
    obtain ⟨hu, hrange⟩ := h layout stage rfl
    have hrange' := ((respond_inRange hu hrange datagram).ensures device).2
    rw [process_run]
    rintro layout' stage' ⟨⟩
    exact ⟨hu, hrange'⟩

theorem Kept.configured {installer : Installer} (h : Kept g installer) (layout : Layout) :
    Kept g (installer.configure g layout).2 := by
  rw [configure, Layout.check]
  by_cases hu : layout.Usable g
  · rw [if_pos hu]
    rintro layout' stage' ⟨⟩
    exact ⟨hu, trivial⟩
  · rw [if_neg hu]
    exact h

theorem Reachable.kept {installer : Installer} (h : Reachable g installer) :
    Kept g installer := by
  induction h with
  | uninitialized => exact nofun
  | configured before layout ih => exact ih.configured layout
  | processed before datagram device ih => exact ih.processed datagram device

/-! ## What a failure leaves behind -/

/-- What is left of the device and of the update when `datagram` has failed with `fault`. -/
structure Aftermath (g : Geometry) (installer : Installer) (datagram : Datagram)
    (device : Device g) (fault : Fault) (next : Installer) (after : Device g) : Prop where
  /-- A rejection changes nothing. -/
  rejected : fault.IsRejection → next = installer ∧ after = device
  /-- The room for an image could not be cleared. -/
  uncleared {cause : FlashFault} : datagram.kind = .firmwareMetadata → fault = .flash cause →
    (∃ layout, installer = .ready layout .idle) ∧ next = installer
  /-- A chunk could not be programmed to its end. -/
  abandoned {layout : Layout} {manifest : Manifest} {written chunks : Nat} {failure : Fault} :
    installer = .ready layout (.receiving manifest written chunks) →
    datagram.kind = .firmwareChunk →
    refuseChunk g manifest written chunks datagram = none →
    ((writeChunk g (layout.staging + written) datagram.data).run.run device).1 = .error failure →
    fault = failure ∧ (∃ cause, failure = .flash cause)
      ∧ next = .ready layout .idle ∧ next.manifest? = none ∧ next.progress = (0, 0)
      ∧ Flash.SameOutside [chunkExtent g (layout.staging + written) datagram.data]
          device.flash after.flash
      ∧ (g.writeSize ∣ g.eraseSize →
          (chunkExtent g (layout.staging + written) datagram.data).last
            ≤ layout.stagingExtent.last)
      ∧ after.jumper = device.jumper
  /-- The installation behind the last chunk has failed. -/
  unfinished {layout : Layout} {manifest : Manifest} {written chunks : Nat} :
    installer = .ready layout (.receiving manifest written chunks) →
    datagram.kind = .firmwareChunk →
    refuseChunk g manifest written chunks datagram = none →
    ((writeChunk g (layout.staging + written) datagram.data).run.run device).1 = .ok () →
    written + datagram.data.length = manifest.size.toNat →
    next = .ready layout (.complete manifest) ∧ next.manifest? = some manifest
      ∧ next.progress = (manifest.size.toNat, manifest.size.toNat)

/-- Wherever the update is, a datagram that fails leaves behind what its failure allows, and a
layout that is not accepted changes nothing. -/
theorem failure_aftermath {installer : Installer} (hreachable : Reachable g installer) :
    (∀ datagram (device : Device g) fault,
        ((process g installer datagram).run device).1.1 = .error fault →
        Aftermath g installer datagram device fault
          ((process g installer datagram).run device).1.2
          ((process g installer datagram).run device).2)
      ∧ ∀ layout fault, (installer.configure g layout).1 = .error fault →
          (installer.configure g layout).2 = installer := by
  have hkept := hreachable.kept
  refine ⟨fun datagram device fault hresult => ?_, fun layout fault hresult => ?_⟩
  · constructor
    case rejected => exact process_rejected hresult
    case uncleared =>
      intro cause hkind hfault
      obtain ⟨hnext, hidle | hrejection⟩ := process_announcement_failed hkind hresult
      · exact ⟨hidle, hnext⟩
      · exact absurd hrejection (Fault.OfFlash.not_isRejection (.inr ⟨cause, hfault⟩))
    case abandoned =>
      rintro layout manifest written chunks failure rfl hkind hrefuse hwrite
      obtain ⟨hu, hrange⟩ := hkept _ _ rfl
      have hphysical := ((writeChunk_physical g (layout.staging + written)
        datagram.data).ensures device).2 failure hwrite
      rw [process_run, respond_chunk hkind, acceptChunk_abandoned hrefuse hwrite] at hresult ⊢
      cases hresult
      exact ⟨rfl, hphysical, rfl, rfl, rfl, writeChunk_sameOutside hu _ _ _,
        fun hpage => chunkExtent_within hu hpage hrange hrefuse, writeChunk_jumper _ _ _ _⟩
    case unfinished =>
      rintro layout manifest written chunks rfl hkind hrefuse hwrite hlast
      rw [process_run, respond_chunk hkind] at hresult ⊢
      rw [acceptChunk_unfinished hrefuse hwrite hlast hresult]
      exact ⟨rfl, rfl, rfl⟩
  · rw [configure] at hresult ⊢
    cases hcheck : layout.check g with
    | error fault' => rfl
    | ok _ =>
      rw [hcheck] at hresult
      cases hresult

/-- A node that has been told of an image of six bytes. -/
def expectant : Installer :=
  ((process Pocket.geometry (configure Pocket.geometry .uninitialized Pocket.layout).2
    ((Board.describe [1, 2, 3, 4, 5, 6]).toDatagram 0 none)).run
      ({} : Device Pocket.geometry)).1.2

/-- A part whose second write is going to fail. -/
def tearingDevice : Device Pocket.geometry where
  flash := ({} : Flash Pocket.geometry).failAfter .write 1

/-- The whole image comes in one chunk, of which only the first write is programmed. -/
def tornChunk : Datagram := .pack .firmwareChunk 0 none [1, 2, 3, 4, 5, 6]

/-- The image is given up; the first write is in flash, and nothing else has changed. -/
theorem failure_aftermath_torn :
    let outcome := (process Pocket.geometry expectant tornChunk).run tearingDevice
    outcome.1.1 = .error (.flash .writeFailed) ∧ outcome.1.2 = .ready Pocket.layout .idle
      ∧ outcome.2.flash.slice 0 4 = [1, 2, 3, 4]
      ∧ Flash.SameOutside [⟨0, 8⟩] tearingDevice.flash outcome.2.flash := by
  intro outcome
  have hreachable : Reachable Pocket.geometry expectant :=
    .processed (.configured .uninitialized Pocket.layout) _ {}
  have hwrite : ((writeChunk Pocket.geometry 0 tornChunk.data).run.run tearingDevice).1
      = .error (.flash .writeFailed) := Fault.ofResult?_eq_some.1 (by decide +kernel)
  have hresult : outcome.1.1 = .error (.flash .writeFailed) :=
    Fault.ofResult?_eq_some.1 (by decide +kernel)
  have hstate : expectant
      = .ready Pocket.layout (.receiving (Board.describe [1, 2, 3, 4, 5, 6]) 0 0) := by
    decide +kernel
  obtain ⟨-, -, hnext, -, -, hsame, -⟩ :=
    ((failure_aftermath hreachable).1 tornChunk tearingDevice _ hresult).abandoned hstate rfl
      (by decide +kernel) hwrite
  have hplace : chunkExtent Pocket.geometry (Pocket.layout.staging + 0) tornChunk.data
      = ⟨0, 8⟩ := by decide +kernel
  rw [hplace] at hsame
  exact ⟨hresult, hnext, by decide +kernel, hsame⟩

end Installer

end Reflash
