/-
  Reflash.Proofs.Install.Access

  What a node asks of its flash is always of the right form. Every procedure of the
  installer programs whole writes, erases whole pages, and stops at the first request
  that fails. With the places of the layout around it, no request is ever refused for
  being out of bounds or not aligned, whatever the sizes in a datagram or the bytes in
  the record page are, and nothing outside the layout changes.
-/
import Reflash.Proofs.Flash.Order
import Reflash.Proofs.Install.Untouched

namespace Reflash

/-! ## Faults of what is said, not of flash -/

theorem Manifest.decode_error {data : Bytes} {fault : Fault}
    (h : Manifest.decode data = .error fault) : fault = .invalidDatagram := by
  rw [decode] at h
  split at h
  · cases h
    rfl
  · cases h

theorem JumpRequest.decode_error {data : Bytes} {fault : Fault}
    (h : JumpRequest.decode data = .error fault) : fault = .invalidDatagram := by
  simp only [decode] at h
  split at h
  · cases h
    rfl
  · split at h <;> cases h
    rfl

theorem Installer.refuseChunk_ne_flash {g : Geometry} {manifest : Manifest}
    {written chunks : Nat} {datagram : Datagram} {fault : Fault}
    (h : refuseChunk g manifest written chunks datagram = some fault) (cause : FlashFault) :
    fault ≠ .flash cause := by
  simp only [refuseChunk] at h
  intro heq
  subst heq
  split at h
  · cases h
  split at h
  · cases h
  split at h
  · cases h
  split at h <;> cases h

namespace Installer

open FlashTask (read_orderly write_orderly erase_orderly orderly_pure orderly_throw)

variable {g : Geometry} {layout : Layout}

/-- The fault that is answered, if one is. -/
def answered? {α : Type} (outcome : Except Fault Unit × α) : Option Fault :=
  Fault.ofResult? outcome.1

/-- An answer given without asking anything of flash. -/
theorem refused_orderly {α : Type} (fault : Fault) (h : ∀ cause, fault ≠ .flash cause) (a : α) :
    (pure (.error fault, a) : Procedure (Except Fault Unit × α)).Orderly g answered?
      fun _ => True :=
  ⟨fun cause heq => h cause (Option.some.inj heq), trivial⟩

theorem taken_orderly {α : Type} (a : α) :
    (pure (.ok (), a) : Procedure (Except Fault Unit × α)).Orderly g answered? fun _ => True :=
  ⟨Fault.isVerdict_none, trivial⟩

/-! ## Steps on flash -/

/-- A chunk is programmed in whole writes, if it begins on one. -/
theorem writeChunk_orderly (hu : layout.Usable g) {offset : Nat} (hstart : g.writeSize ∣ offset)
    (data : Bytes) : (writeChunk g offset data).Orderly g fun _ => True := by
  have hdvd := dvd_wholeWrites g data
  rw [writeChunk_eq]
  have hfront : (writeFront g offset data).Orderly g fun _ => True := by
    rw [writeFront]
    split
    · exact write_orderly hstart ((length_take_wholeWrites g data).symm ▸ hdvd)
    · exact orderly_pure trivial
  refine hfront.bind fun _ _ => ?_
  rw [writeTail]
  split
  · exact write_orderly (Nat.dvd_add hstart hdvd)
      ((length_tailWrite hu.write_pos data).symm ▸ Nat.dvd_refl _)
  · exact orderly_pure trivial

theorem clear_orderly (hu : layout.Usable g) {offset : Nat}
    (hrecord : layout.record? = some offset) : (Record.clear g offset).Orderly g fun _ => True := by
  have hpage := hu.page_dvd_record hrecord
  exact erase_orderly hpage (Nat.dvd_add hpage (Nat.dvd_refl _))

theorem clearRecord_orderly (hu : layout.Usable g) :
    (clearRecord g layout).Orderly g fun _ => True := by
  rw [clearRecord]
  cases hrecord : layout.record? with
  | none => exact orderly_pure trivial
  | some offset => exact clear_orderly hu hrecord

theorem storeRecord_orderly (hg : layout.Paged g) (hu : layout.Usable g) (manifest : Manifest) :
    (storeRecord g layout manifest).Orderly g fun _ => True := by
  rw [storeRecord]
  cases hrecord : layout.record? with
  | none => exact orderly_pure trivial
  | some offset =>
    have hoffset := Nat.dvd_trans hg.write_dvd_page (hu.page_dvd_record hrecord)
    refine (clear_orderly hu hrecord).bind fun _ _ => write_orderly hoffset ?_
    rw [Record.length_encode]
    exact hu.write_dvd_record

theorem checkImage_orderly (offset : Nat) (manifest : Manifest) :
    (checkImage offset manifest).Orderly g fun _ => True := by
  refine (Pages.crc_orderly _ _).bind fun crc _ => ?_
  split
  · exact orderly_throw nofun
  · exact orderly_pure trivial

theorem finalize_orderly (hg : layout.Paged g) (hu : layout.Usable g) (manifest : Manifest) :
    (finalize g layout manifest).Orderly g fun _ => True := by
  rw [finalize_eq]
  refine (checkImage_orderly _ _).bind fun _ _ => ?_
  refine (clearRecord_orderly hu).bind fun _ _ => ?_
  refine (Pages.copy_orderly hg.write_dvd_page hu.write_dvd_block _ hu.page_dvd_active _).bind
    fun _ _ => ?_
  exact (checkImage_orderly _ _).bind fun _ _ => storeRecord_orderly hg hu manifest

theorem jumpTo_orderly (target : JumpTarget) :
    (jumpTo target).Orderly g some fun _ => True :=
  ⟨nofun, trivial⟩

theorem leave_orderly (layout : Layout) (manifest : Manifest) :
    (leave layout manifest).Orderly g some fun _ => True := by
  refine (Pages.isBlank_orderly _ _).run ?_ fun fault => ⟨fault, rfl, rfl, trivial⟩
  intro blank _
  cases blank with
  | true => exact ⟨nofun, trivial⟩
  | false => exact jumpTo_orderly .application

/-! ## Looking at the application -/

theorem load_orderly (offset : Nat) : (Record.load offset).Orderly g fun _ => True :=
  (read_orderly _ _).bind fun _ _ => orderly_pure trivial

theorem checkActive_orderly (layout : Layout) : (checkActive layout).Orderly g fun _ => True := by
  rw [checkActive]
  cases hrecord : layout.record? with
  | none =>
    refine (Pages.isBlank_orderly _ _).bind fun blank _ => ?_
    cases blank with
    | true => exact orderly_throw (by simp)
    | false => exact orderly_pure trivial
  | some offset =>
    refine (load_orderly offset).bind fun record? _ => ?_
    cases record? with
    | none => exact orderly_throw (by simp)
    | some record =>
      -- Whatever size the record gives: it is checked before the image is read.
      show FlashTask.Orderly (if record.size = 0 ∨ record.size.toNat > layout.regionSize then
        throw Fault.flashVerificationFailed >>= fun _ => _ else _) _ _
      split
      · exact orderly_throw (by simp)
      · refine (Pages.crc_orderly _ _).bind fun crc _ => ?_
        split
        · exact orderly_throw (by simp)
        · exact orderly_pure trivial

theorem checkInstalled_orderly (installer : Installer) :
    (checkInstalled installer).Orderly g fun _ => True := by
  cases installer with
  | uninitialized => exact orderly_throw nofun
  | ready layout stage => exact checkActive_orderly layout

theorem installedImage_orderly (installer : Installer) :
    (installedImage installer).Orderly g fun _ => True := by
  cases installer with
  | uninitialized => exact orderly_pure trivial
  | ready layout stage =>
    rw [installedImage]
    cases layout.record? with
    | none => exact orderly_pure trivial
    | some offset => exact load_orderly offset

theorem failSafeJump_orderly (installer : Installer) :
    (failSafeJump installer).Orderly g some fun _ => True :=
  (checkInstalled_orderly installer).run (fun _ _ => jumpTo_orderly .application)
    fun fault => ⟨fault, rfl, rfl, trivial⟩

/-! ## Datagrams -/

theorem acceptManifest_orderly (hu : layout.Usable g) (data : Bytes) :
    (acceptManifest g layout data).Orderly g answered? fun _ => True := by
  have hpage := hu.page_dvd_staging
  rw [acceptManifest]
  cases hdecode : Manifest.decode data with
  | error fault => exact refused_orderly fault (by simp [Manifest.decode_error hdecode]) _
  | ok manifest =>
    show Procedure.Orderly g answered? _ (if manifest.size = 0
      ∨ manifest.size.toNat > layout.regionSize then _ else _)
    split
    · exact refused_orderly .binaryOversized (by simp) _
    · refine (erase_orderly hpage (Nat.dvd_add hpage (Pages.dvd_span g _))).run ?_ ?_
      · exact fun _ _ => taken_orderly _
      · exact fun fault => ⟨_, rfl, rfl, trivial⟩

theorem acceptChunk_orderly (hg : layout.Paged g) (hu : layout.Usable g) {manifest : Manifest}
    {written chunks : Nat} (datagram : Datagram)
    (hrange : (Stage.receiving manifest written chunks).InRange g layout) :
    (acceptChunk g layout manifest written chunks datagram).Orderly g answered?
      fun _ => True := by
  -- All that is staged so far is whole writes, so that the chunk begins on one.
  have hstart : g.writeSize ∣ layout.staging + written :=
    Nat.dvd_add (Nat.dvd_trans hg.write_dvd_page hu.page_dvd_staging) hrange.2.2
  rw [acceptChunk]
  cases hrefuse : refuseChunk g manifest written chunks datagram with
  | some fault => exact refused_orderly fault (refuseChunk_ne_flash hrefuse) _
  | none =>
    refine (writeChunk_orderly hu hstart datagram.data).run ?_
      fun fault => ⟨_, rfl, rfl, trivial⟩
    intro _ _
    show Procedure.Orderly g answered? _
      (if written + datagram.data.length ≠ manifest.size.toNat then _ else _)
    split
    · exact taken_orderly _
    · exact (finalize_orderly hg hu manifest).run (fun _ _ => taken_orderly _)
        fun fault => ⟨_, rfl, rfl, trivial⟩

/-- Leaving, with the answer to a jump request. -/
theorem leaving_orderly (layout : Layout) (manifest : Manifest) (stage : Stage) :
    (leave layout manifest >>= fun fault =>
      (pure (.error fault, stage) : Procedure (Except Fault Unit × Stage))).Orderly g answered?
      fun _ => True :=
  (leave_orderly layout manifest).map fun _ => rfl

theorem acceptJump_orderly (hg : layout.Paged g) (hu : layout.Usable g) (stage : Stage)
    (data : Bytes) : (acceptJump g layout stage data).Orderly g answered? fun _ => True := by
  simp only [acceptJump]
  cases hdecode : JumpRequest.decode data with
  | error fault => exact refused_orderly fault (by simp [JumpRequest.decode_error hdecode]) _
  | ok request =>
    cases stage with
    | idle => exact refused_orderly .bootloaderInvalidState (by simp) _
    | receiving manifest written chunks => exact refused_orderly .bootloaderInvalidState (by simp) _
    | complete manifest =>
      exact (finalize_orderly hg hu manifest).run
        (fun _ _ => leaving_orderly layout manifest (.installed manifest))
        fun fault => ⟨_, rfl, rfl, trivial⟩
    | installed manifest => exact leaving_orderly layout manifest (.installed manifest)

/-- Whatever a node is sent, what it asks of flash is in order. -/
theorem respond_orderly (hg : layout.Paged g) (hu : layout.Usable g) {stage : Stage}
    (datagram : Datagram) (hrange : stage.InRange g layout) :
    (respond g layout stage datagram).Orderly g answered? fun _ => True := by
  simp only [respond]
  split
  · exact acceptJump_orderly hg hu _ datagram.data
  · exact acceptManifest_orderly hu datagram.data
  · exact acceptChunk_orderly hg hu datagram hrange
  · exact refused_orderly .bootloaderInvalidState (by simp) _

end Installer

/-! ## Trials -/

/-- A request of the right form and in the places of the layout, with no byte outside these places
different from what `flash` held. -/
def Moment.InPlace {g : Geometry} (layout : Layout) (flash : Flash g) (moment : Moment g) : Prop :=
  moment.request.Admissible g ∧ moment.request.Within (layout.extents g) (layout.extents g)
    ∧ Flash.SameOutside (layout.extents g) flash moment.device.flash

/-- What the operation does, with the fault that it answers, if it does. -/
def Operation.perform (g : Geometry) (layout : Layout) (installer : Installer)
    (previous : Option Manifest) :
    Operation → Procedure ((Installer × Option Manifest) × Option Fault)
  | process datagram => do
    let outcome ← installer.process g datagram
    pure ((outcome.2, Installer.announced? previous datagram outcome.1),
      Installer.answered? outcome)
  | failSafeJump => do
    let fault ← installer.failSafeJump
    pure ((installer, previous), some fault)
  | checkInstalled => do
    let outcome ← installer.checkInstalled.run
    pure ((installer, previous), Fault.ofResult? outcome)
  | installedImage => do
    let outcome ← installer.installedImage.run
    pure ((installer, previous), Fault.ofResult? outcome)
  | configure =>
    let outcome := installer.configure g layout
    pure ((outcome.2, previous), Installer.answered? outcome)
  | planFault .. => pure ((installer, previous), none)

theorem Operation.act_eq_perform (g : Geometry) (layout : Layout) (installer : Installer)
    (previous : Option Manifest) (operation : Operation) :
    operation.act g layout installer previous
      = operation.perform g layout installer previous >>= fun outcome => pure outcome.1 := by
  cases operation with
  | process datagram => simp only [act, perform, bind_assoc, pure_bind]
  | failSafeJump => simp only [act, perform, bind_assoc, pure_bind]
  | checkInstalled => simp only [act, perform, bind_assoc, pure_bind]
  | installedImage => simp only [act, perform, bind_assoc, pure_bind]
  | configure => rfl
  | planFault operation skip => rfl

namespace Trial

variable {g : Geometry} {layout : Layout} {trial : Trial g}

/-- The fault that one more operation answers, if it does. -/
def answered? (layout : Layout) (trial : Trial g) (operation : Operation) : Option Fault :=
  ((operation.perform g layout trial.installer trial.last?).run
    (operation.prepare trial.device)).1.2

theorem moments_eq (operation : Operation) :
    trial.moments layout operation
      = ((operation.perform g layout trial.installer trial.last?).trace
          (operation.prepare trial.device)).map fun step =>
        { operation, last? := trial.last?, request := step.1, device := step.2 } := by
  rw [moments, Operation.act_eq_perform, Procedure.trace_bind]
  exact congrArg _ (List.append_nil _)

theorem step_device (operation : Operation) :
    (trial.step layout operation).device
      = ((operation.perform g layout trial.installer trial.last?).run
          (operation.prepare trial.device)).2 := by
  rw [step, Operation.act_eq_perform, Procedure.run_bind]
  rfl

theorem perform_asks (hg : layout.Paged g) (hu : layout.Usable g) (hrange : trial.InRange layout)
    (operation : Operation) :
    (operation.perform g layout trial.installer trial.last?).Asks
      (Request.Within (layout.extents g) (layout.extents g)) fun _ => True := by
  -- The requests are those of `act`, of which it has been shown.
  have hact : (operation.perform g layout trial.installer trial.last? >>= fun outcome =>
      pure outcome.1).Asks (Request.Within (layout.extents g) (layout.extents g))
      fun _ => True := by
    rw [← Operation.act_eq_perform]
    rcases hrange with hnone | ⟨stage, hstage, hrange⟩
    · obtain ⟨installer, hact, -⟩ := act_uninitialized hu trial.last? operation
      rw [hnone, hact]
      exact Procedure.asks_pure trivial
    · rw [hstage]
      exact (act_asks hg hu hrange trial.last? operation).imp (fun _ h => h) fun _ _ => trivial
  exact hact.of_map

/-- A datagram is answered with the fault of a request that has failed, or with no fault of flash
at all. -/
theorem process_orderly (hg : layout.Paged g) (hu : layout.Usable g) (hrange : trial.InRange layout)
    (datagram : Datagram) :
    (trial.installer.process g datagram).Orderly g Installer.answered? fun _ => True := by
  rcases hrange with hnone | ⟨stage, hstage, hrange⟩
  · rw [hnone]
    exact Installer.refused_orderly .bootloaderUninitialized nofun _
  · rw [hstage, Installer.process_ready]
    exact (Installer.respond_orderly hg hu datagram hrange).map fun _ => rfl

theorem perform_orderly (hg : layout.Paged g) (hu : layout.Usable g) (hrange : trial.InRange layout)
    (operation : Operation) :
    (operation.perform g layout trial.installer trial.last?).Orderly g Prod.snd
      fun _ => True := by
  cases operation with
  | process datagram => exact (process_orderly hg hu hrange datagram).map fun _ => rfl
  | failSafeJump => exact (Installer.failSafeJump_orderly trial.installer).map fun _ => rfl
  | checkInstalled =>
    exact Procedure.Orderly.map (Installer.checkInstalled_orderly trial.installer) fun _ => rfl
  | installedImage =>
    exact Procedure.Orderly.map (Installer.installedImage_orderly trial.installer) fun _ => rfl
  | configure =>
    refine ⟨?_, trivial⟩
    rw [Installer.configure, Layout.check_eq_ok hu]
    exact Fault.isVerdict_none
  | planFault operation skip => exact ⟨Fault.isVerdict_none, trivial⟩

/-- Every request of an operation has the right form and lies in the places of the layout, and what
the operation answers is as its requests went. -/
theorem perform_ensures (hg : layout.Paged g) (hu : layout.Usable g) (hrange : trial.InRange layout)
    (operation : Operation) (device : Device g) :
    (operation.perform g layout trial.installer trial.last?).Ensures device
      (fun request _ => request.Admissible g)
      (fun outcome after => Procedure.Settles Prod.snd device.flash outcome after.flash) := by
  have hbounds : ∀ extent ∈ layout.extents g, extent.last ≤ g.capacity :=
    fun extent hmem => (hu.2.2.1 extent hmem).2
  exact (perform_orderly hg hu hrange operation).ensures (perform_asks hg hu hrange operation)
    hbounds hbounds device

theorem answered?_ne_form (hg : layout.Paged g) (hu : layout.Usable g)
    (hrange : trial.InRange layout) (operation : Operation) :
    trial.answered? layout operation ≠ some (.flash .notAligned)
      ∧ trial.answered? layout operation ≠ some (.flash .outOfBounds) :=
  (perform_ensures hg hu hrange operation _).2.ne_form

/-- What an operation changes, it changes in the places of the layout. -/
theorem step_sameOutside (hg : layout.Paged g) (hu : layout.Usable g)
    (hrange : trial.InRange layout) (operation : Operation) :
    Flash.SameOutside (layout.extents g) trial.device.flash
      (trial.step layout operation).device.flash := by
  rw [step_device]
  exact (Flash.sameOutside_of_memory_eq (prepare_memory trial.device operation) _).trans
    ((perform_asks hg hu hrange operation).sameOutside _).2

theorem moment_inPlace (hg : layout.Paged g) (hu : layout.Usable g) (hrange : trial.InRange layout)
    {operation : Operation} {moment : Moment g} (hmem : moment ∈ trial.moments layout operation) :
    moment.InPlace layout trial.device.flash := by
  rw [moments_eq] at hmem
  obtain ⟨step, hstep, rfl⟩ := List.mem_map.1 hmem
  obtain ⟨hwithin, hsame⟩ :=
    ((perform_asks hg hu hrange operation).confined (operation.prepare trial.device)).1 step hstep
  exact ⟨(perform_ensures hg hu hrange operation _).1 step hstep, hwithin,
    (Flash.sameOutside_of_memory_eq (prepare_memory trial.device operation) _).trans hsame⟩

theorem run_inRange (hg : layout.Paged g) (hu : layout.Usable g) (hrange : trial.InRange layout)
    (operations : List Operation) : (trial.run layout operations).InRange layout := by
  induction operations generalizing trial with
  | nil => exact hrange
  | cons operation operations ih => exact ih (step_inRange hg hu hrange operation)

/-- All along a trial every request is in place, counted from the flash that the trial began on. -/
theorem history_inPlace (hg : layout.Paged g) (hu : layout.Usable g) (hrange : trial.InRange layout)
    (operations : List Operation) :
    (∀ moment ∈ trial.history layout operations, moment.InPlace layout trial.device.flash)
      ∧ Flash.SameOutside (layout.extents g) trial.device.flash
        (trial.run layout operations).device.flash := by
  induction operations generalizing trial with
  | nil =>
    refine ⟨?_, Flash.SameOutside.refl _ _⟩
    intro moment hmem
    cases hmem
  | cons operation operations ih =>
    have hstep := step_sameOutside hg hu hrange operation
    obtain ⟨hmoments, hend⟩ := ih (step_inRange hg hu hrange operation)
    refine ⟨?_, hstep.trans hend⟩
    intro moment hmem
    rcases List.mem_append.1 hmem with hmem | hmem
    · exact moment_inPlace hg hu hrange hmem
    · obtain ⟨hadmissible, hwithin, hsame⟩ := hmoments moment hmem
      exact ⟨hadmissible, hwithin, hstep.trans hsame⟩

/-- Whatever is done with a node, whatever its flash held and whichever requests fail: no operation
answers that a request was not aligned or out of bounds, every request has the right form and lies
in the places of the layout, and outside these places no byte ever changes. -/
theorem access_in_place (hg : g.Regular) (hu : layout.Usable g) (device : Device g)
    (operations : List Operation) :
    (∀ operation,
        ((fresh device).run layout operations).answered? layout operation
            ≠ some (.flash .notAligned)
          ∧ ((fresh device).run layout operations).answered? layout operation
            ≠ some (.flash .outOfBounds))
      ∧ (∀ moment ∈ (fresh device).history layout operations, moment.InPlace layout device.flash)
      ∧ Flash.SameOutside (layout.extents g) device.flash
        ((fresh device).run layout operations).device.flash :=
  ⟨fun operation => answered?_ne_form (hg.paged layout) hu
      (run_inRange (hg.paged layout) hu (inRange_fresh device) operations) operation,
    history_inPlace (hg.paged layout) hu (inRange_fresh device) operations⟩

/-- A part with a record of an image that is larger than the part. -/
def boastfulDevice : Device Pocket.geometry where
  flash := ({} : Flash Pocket.geometry).preload 64
    (Record.encode { size := 0xFFFFFFFF, crc := 0 })

/-- The record is looked at but not believed, and the chunk that cannot be programmed is answered
with the failure. -/
theorem access_in_place_pocket :
    let operations := [.configure, .checkInstalled,
      .process (Reception.pocketManifest.toDatagram 0 none), .planFault .write 0]
    let trial := (fresh boastfulDevice).run Pocket.layout operations
    ((fresh boastfulDevice).history Pocket.layout operations).map (·.request)
        = [.read 64 32, .erase 0 32]
      ∧ (∀ moment ∈ (fresh boastfulDevice).history Pocket.layout operations,
        moment.InPlace Pocket.layout boastfulDevice.flash)
      ∧ trial.answered? Pocket.layout (.process (.pack .firmwareChunk 0 none [1, 2, 3, 4]))
        = some (.flash .writeFailed) := by
  intro operations trial
  obtain ⟨-, hmoments, -⟩ := access_in_place Pocket.geometry_regular Pocket.layout_usable
    boastfulDevice operations
  exact ⟨by decide +kernel, hmoments, by decide +kernel⟩

end Trial

end Reflash
