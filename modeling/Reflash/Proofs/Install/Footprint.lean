/-
  Reflash.Proofs.Install.Footprint

  Where a node reads, programs and erases while it handles datagrams, whatever its
  flash holds and whichever requests fail. Everything lies in the places of its
  layout. An announcement and the staging of a chunk keep to the staging region, an
  installation changes only the places of the application, and looking at the
  application changes nothing.
-/
import Reflash.Proofs.Flash.Footprint
import Reflash.Proofs.Install.Trial

namespace Reflash

/-- The place that a request ends before. -/
def Request.reach : Request → Nat
  | read offset length => offset + length
  | write offset bytes => offset + bytes.length
  | erase _ last => last
  | jump _ => 0

/-! ## Places -/

namespace Layout

variable {g : Geometry} {layout : Layout}

def stagingExtent (layout : Layout) : Extent :=
  ⟨layout.staging, layout.staging + layout.regionSize⟩

/-- Where the installed application and its record are. -/
def applicationExtents (g : Geometry) (layout : Layout) : List Extent :=
  ⟨layout.active, layout.active + layout.regionSize⟩ :: layout.recordPage g

theorem stagingExtent_mem (g : Geometry) (layout : Layout) :
    layout.stagingExtent ∈ layout.extents g :=
  List.mem_cons_self

theorem application_sub_extents (g : Geometry) (layout : Layout) :
    ∀ extent ∈ layout.applicationExtents g, extent ∈ layout.extents g :=
  fun _ hmem => List.mem_cons_of_mem _ hmem

theorem staging_sub_extents (g : Geometry) (layout : Layout) :
    ∀ extent ∈ [layout.stagingExtent], extent ∈ layout.extents g := by
  intro extent hmem
  rw [List.mem_singleton.1 hmem]
  exact stagingExtent_mem g layout

theorem active_mem_application (g : Geometry) (layout : Layout) :
    ⟨layout.active, layout.active + layout.regionSize⟩ ∈ layout.applicationExtents g :=
  List.mem_cons_self

theorem record_mem_application {offset : Nat} (hrecord : layout.record? = some offset) :
    ⟨offset, offset + g.eraseSize⟩ ∈ layout.applicationExtents g :=
  List.mem_cons_of_mem _ (mem_recordPage.2 ⟨offset, hrecord, rfl⟩)

/-- The staging region lies apart from the places of the application. -/
theorem application_apart (hu : layout.Usable g) :
    ∀ extent ∈ layout.applicationExtents g,
      layout.staging + layout.regionSize ≤ extent.first ∨ extent.last ≤ layout.staging := by
  intro extent hmem
  rcases List.mem_cons.1 hmem with rfl | hmem
  · exact hu.regions_apart
  · obtain ⟨offset, hrecord, rfl⟩ := mem_recordPage.1 hmem
    exact (hu.record_apart hrecord).1

/-- A request in the places of a layout lies in the part. -/
theorem reach_le_capacity (hu : layout.Usable g) {request : Request}
    (h : request.Within (layout.extents g) (layout.extents g)) : request.reach ≤ g.capacity := by
  cases request with
  | read offset length =>
    obtain ⟨extent, hmem, hcovers⟩ := h
    exact Nat.le_trans hcovers.2 (hu.2.2.1 extent hmem).2
  | write offset bytes =>
    obtain ⟨extent, hmem, hcovers⟩ := h
    exact Nat.le_trans hcovers.2 (hu.2.2.1 extent hmem).2
  | erase first last =>
    obtain ⟨-, extent, hmem, -, hlast⟩ := h
    exact Nat.le_trans hlast (hu.2.2.1 extent hmem).2
  | jump target => exact Nat.zero_le _

end Layout

/-- What a node knows of the image under way fits its layout. -/
def Stage.InRange (g : Geometry) (layout : Layout) : Stage → Prop
  | .idle => True
  | .receiving manifest written _ => layout.Admits manifest ∧ written < manifest.size.toNat
      ∧ g.writeSize ∣ written
  | .complete manifest => layout.Admits manifest
  | .installed manifest => layout.Admits manifest

namespace Installer

open FlashTask (read_asks write_asks erase_asks asks_pure asks_throw)

variable {g : Geometry} {layout : Layout} {readable writable : List Extent}

/-! ## Steps on flash -/

/-- A chunk is programmed into the room there is for it, if that is whole writes. -/
theorem writeChunk_asks (hu : layout.Usable g) {extent : Extent} (hmem : extent ∈ writable)
    {offset room : Nat} (data : Bytes) (hcovers : extent.Covers offset room)
    (hwhole : g.writeSize ∣ room) (hroom : data.length ≤ room) :
    (writeChunk g offset data).Asks (Request.Within readable writable) fun _ => True := by
  have hle := wholeWrites_le g data
  rw [Extent.Covers] at hcovers
  rw [writeChunk_eq]
  have hfront : (writeFront g offset data).Asks (Request.Within readable writable)
      fun _ => True := by
    rw [writeFront]
    split
    · refine write_asks hmem ?_
      rw [Extent.Covers, length_take_wholeWrites]
      omega
    · exact asks_pure trivial
  refine hfront.bind fun _ _ => ?_
  rw [writeTail]
  split
  · next hmore =>
    -- The room ends on a whole write, so that there is room for one more of them.
    obtain ⟨behind, hbehind⟩ := Nat.exists_eq_add_of_le (Nat.le_trans hle hroom)
    have hone : g.writeSize ≤ behind := Nat.le_of_dvd (by omega)
      ((Nat.dvd_add_right (dvd_wholeWrites g data)).1 (hbehind ▸ hwhole))
    refine write_asks hmem ?_
    rw [Extent.Covers, length_tailWrite hu.write_pos]
    omega
  · exact asks_pure trivial

theorem record_covers (hg : layout.Paged g) {offset : Nat}
    (hrecord : layout.record? = some offset) :
    Extent.Covers ⟨offset, offset + g.eraseSize⟩ offset Layout.recordSize :=
  ⟨Nat.le_refl _, Nat.add_le_add_left (hg.record_le_page hrecord) _⟩

theorem clearRecord_asks (g : Geometry) (layout : Layout) :
    (clearRecord g layout).Asks (Request.Within readable (layout.applicationExtents g))
      fun _ => True := by
  rw [clearRecord]
  cases hrecord : layout.record? with
  | none => exact asks_pure trivial
  | some offset =>
    exact erase_asks (Layout.record_mem_application hrecord) (Nat.le_add_right _ _)
      (Nat.le_refl _) (Nat.le_refl _)

theorem storeRecord_asks (hg : layout.Paged g) (manifest : Manifest) :
    (storeRecord g layout manifest).Asks (Request.Within readable (layout.applicationExtents g))
      fun _ => True := by
  rw [storeRecord]
  cases hrecord : layout.record? with
  | none => exact asks_pure trivial
  | some offset =>
    have hmem : ⟨offset, offset + g.eraseSize⟩ ∈ layout.applicationExtents g :=
      Layout.record_mem_application hrecord
    refine (erase_asks hmem (Nat.le_add_right _ _) (Nat.le_refl _) (Nat.le_refl _)).bind
      fun _ _ => write_asks hmem ?_
    rw [Record.length_encode]
    exact record_covers hg hrecord

theorem checkImage_asks {extent : Extent} (hmem : extent ∈ readable) {offset : Nat}
    {manifest : Manifest} (hcovers : extent.Covers offset manifest.size.toNat) :
    (checkImage offset manifest).Asks (Request.Within readable writable) fun _ => True := by
  refine (Pages.crc_asks hmem hcovers).bind fun crc _ => ?_
  split
  · exact asks_throw _
  · exact asks_pure trivial

/-- An installation changes only the places of the application. -/
theorem finalize_asks (hg : layout.Paged g) (hu : layout.Usable g) {manifest : Manifest}
    (hadmits : layout.Admits manifest) :
    (finalize g layout manifest).Asks
      (Request.Within (layout.extents g) (layout.applicationExtents g)) fun _ => True := by
  have hfits := hadmits.2
  have hspan := hu.span_le_region hfits
  have hstaging : ∀ {length}, length ≤ layout.regionSize →
      layout.stagingExtent.Covers layout.staging length :=
    fun h => ⟨Nat.le_refl _, Nat.add_le_add_left h _⟩
  have hactive : ∀ {length}, length ≤ layout.regionSize →
      Extent.Covers ⟨layout.active, layout.active + layout.regionSize⟩ layout.active length :=
    fun h => ⟨Nat.le_refl _, Nat.add_le_add_left h _⟩
  rw [finalize_eq]
  refine (checkImage_asks (Layout.stagingExtent_mem g layout) (hstaging hfits)).bind fun _ _ => ?_
  refine (clearRecord_asks g layout).bind fun _ _ => ?_
  refine (Pages.copy_asks hu.page_pos (Layout.stagingExtent_mem g layout)
    (Layout.active_mem_application g layout) (hstaging hspan) (hactive hspan)).bind fun _ _ => ?_
  refine (checkImage_asks (Layout.Usable.active_mem g layout) (hactive hfits)).bind fun _ _ => ?_
  exact storeRecord_asks hg manifest

/-- Leaving reads the active region. -/
theorem leave_asks {manifest : Manifest} (hadmits : layout.Admits manifest) :
    (leave layout manifest).Asks (Request.Within (layout.extents g) writable) fun _ => True := by
  refine FlashTask.Asks.run (Pages.isBlank_asks (Layout.Usable.active_mem g layout)
    ⟨Nat.le_refl _, Nat.add_le_add_left hadmits.2 _⟩) ?_ fun _ => trivial
  intro blank _
  cases blank with
  | true => exact trivial
  | false => exact ⟨trivial, trivial⟩

/-! ## Looking at the application -/

theorem load_asks (hg : layout.Paged g) {offset : Nat} (hrecord : layout.record? = some offset) :
    (Record.load offset).Asks (Request.Within (layout.applicationExtents g) []) fun _ => True :=
  (read_asks (Layout.record_mem_application hrecord) (record_covers hg hrecord)).bind
    fun _ _ => asks_pure trivial

/-- Checking the application reads its places and changes nothing. -/
theorem checkActive_asks (hg : layout.Paged g) :
    (checkActive layout).Asks (Request.Within (layout.applicationExtents g) []) fun _ => True := by
  rw [checkActive]
  cases hrecord : layout.record? with
  | none =>
    refine (Pages.isBlank_asks (Layout.active_mem_application g layout)
      ⟨Nat.le_refl _, Nat.add_le_add_left (Nat.min_le_left _ _) _⟩).bind fun blank _ => ?_
    cases blank with
    | true => exact asks_throw _
    | false => exact asks_pure trivial
  | some offset =>
    refine (load_asks hg hrecord).bind fun record? _ => ?_
    cases record? with
    | none => exact asks_throw _
    | some record =>
      show FlashTask.Asks (if record.size = 0 ∨ record.size.toNat > layout.regionSize then
        throw Fault.flashVerificationFailed >>= fun _ => _ else _) _ _
      split
      · exact asks_throw _
      · next hsize =>
        refine (Pages.crc_asks (Layout.active_mem_application g layout)
          ⟨Nat.le_refl _, Nat.add_le_add_left (by omega) _⟩).bind fun crc _ => ?_
        split
        · exact asks_throw _
        · exact asks_pure trivial

theorem checkInstalled_asks (hg : layout.Paged g) (stage : Stage) :
    (checkInstalled (.ready layout stage)).Asks
      (Request.Within (layout.applicationExtents g) []) fun _ => True :=
  checkActive_asks hg

theorem installedImage_asks (hg : layout.Paged g) (stage : Stage) :
    (installedImage (.ready layout stage)).Asks
      (Request.Within (layout.applicationExtents g) []) fun _ => True := by
  rw [installedImage]
  cases hrecord : layout.record? with
  | none => exact asks_pure trivial
  | some offset => exact load_asks hg hrecord

theorem failSafeJump_asks (hg : layout.Paged g) (stage : Stage) :
    (failSafeJump (.ready layout stage)).Asks
      (Request.Within (layout.applicationExtents g) []) fun _ => True :=
  (checkInstalled_asks hg stage).run (fun _ _ => ⟨trivial, trivial⟩) fun _ => trivial

/-! ## Datagrams -/

/-- An announcement clears pages of the staging region. -/
theorem acceptManifest_asks (hu : layout.Usable g) (data : Bytes) :
    (acceptManifest g layout data).Asks
      (Request.Within (layout.extents g) [layout.stagingExtent])
      fun outcome => outcome.2.InRange g layout := by
  by_cases hadmits : ∃ manifest, Manifest.decode data = .ok manifest ∧ layout.Admits manifest
  · obtain ⟨manifest, hdecode, hadmits⟩ := hadmits
    have hspan := hu.span_le_region hadmits.2
    rw [acceptManifest, hdecode]
    show Procedure.Asks _ _ (if manifest.size = 0 ∨ manifest.size.toNat > layout.regionSize then _
      else _)
    rw [if_neg fun hsize => Layout.refused_size_iff.1 hsize hadmits]
    exact (FlashTask.erase_asks List.mem_cons_self (Nat.le_add_right _ _) (Nat.le_refl _)
      (Nat.add_le_add_left hspan _)).run (fun _ _ => ⟨hadmits, hadmits.1, Nat.dvd_zero _⟩)
      fun _ => trivial
  · obtain ⟨fault, heq⟩ := acceptManifest_refused g layout
      fun manifest hdecode h => hadmits ⟨manifest, hdecode, h⟩
    rw [heq]
    exact trivial

/-- A chunk that is not refused has room behind what is staged. -/
theorem stageChunk_asks (hg : layout.Paged g) (hu : layout.Usable g) {manifest : Manifest}
    {written chunks : Nat} {datagram : Datagram} (hadmits : layout.Admits manifest)
    (hlt : written < manifest.size.toNat) (hdvd : g.writeSize ∣ written)
    (hrefuse : refuseChunk g manifest written chunks datagram = none) :
    (writeChunk g (layout.staging + written) datagram.data).Asks
      (Request.Within (layout.extents g) [layout.stagingExtent]) fun _ => True := by
  obtain ⟨-, -, hroom, -⟩ := (refuseChunk_eq_none_iff (Nat.le_of_lt hlt)).1 hrefuse
  have hfits := hadmits.2
  have hregion : g.writeSize ∣ layout.regionSize :=
    Nat.dvd_trans hg.write_dvd_page hu.page_dvd_region
  have hcovers : layout.stagingExtent.Covers (layout.staging + written)
      (layout.regionSize - written) := by
    simp only [Extent.Covers, Layout.stagingExtent]
    omega
  exact writeChunk_asks hu List.mem_cons_self datagram.data hcovers (Nat.dvd_sub hregion hdvd)
    (by omega)

/-- The state that a chunk leads to is in range like the one before it. -/
theorem inRange_taken {manifest : Manifest} {written chunks : Nat} {datagram : Datagram}
    (hadmits : layout.Admits manifest) (hlt : written < manifest.size.toNat)
    (hdvd : g.writeSize ∣ written)
    (hrefuse : refuseChunk g manifest written chunks datagram = none)
    (hmore : written + datagram.data.length ≠ manifest.size.toNat) :
    (Stage.receiving manifest (written + datagram.data.length) (chunks + 1)).InRange g layout := by
  obtain ⟨-, -, hroom, hwhole⟩ := (refuseChunk_eq_none_iff (Nat.le_of_lt hlt)).1 hrefuse
  exact ⟨hadmits, by omega, Nat.dvd_add hdvd (hwhole.resolve_left hmore)⟩

theorem acceptChunk_asks (hg : layout.Paged g) (hu : layout.Usable g) {manifest : Manifest}
    {written chunks : Nat} (datagram : Datagram)
    (hrange : (Stage.receiving manifest written chunks).InRange g layout) :
    (acceptChunk g layout manifest written chunks datagram).Asks
      (Request.Within (layout.extents g) (layout.extents g))
      fun outcome => outcome.2.InRange g layout := by
  obtain ⟨hadmits, hlt, hdvd⟩ := hrange
  rw [acceptChunk]
  cases hrefuse : refuseChunk g manifest written chunks datagram with
  | some fault => exact ⟨hadmits, hlt, hdvd⟩
  | none =>
    refine ((stageChunk_asks hg hu hadmits hlt hdvd hrefuse).imp (fun _ h => h.widen
      (Layout.staging_sub_extents g layout)) fun _ h => h).run (fun _ _ => ?_) fun _ => trivial
    show Procedure.Asks _ _ (if written + datagram.data.length ≠ manifest.size.toNat then _ else _)
    split
    · next hmore => exact inRange_taken hadmits hlt hdvd hrefuse hmore
    · exact ((finalize_asks hg hu hadmits).imp (fun _ h => h.widen
        (Layout.application_sub_extents g layout)) fun _ h => h).run (fun _ _ => hadmits)
        fun _ => hadmits

/-- A jump request changes only the places of the application, and leads nowhere but from a
complete image to an installed one. -/
theorem acceptJump_asks (hg : layout.Paged g) (hu : layout.Usable g) {stage : Stage}
    (data : Bytes) (hrange : stage.InRange g layout) :
    (acceptJump g layout stage data).Asks
      (Request.Within (layout.extents g) (layout.applicationExtents g))
      fun outcome => outcome.2 = stage
        ∨ ∃ manifest, stage = .complete manifest ∧ outcome.2 = .installed manifest := by
  simp only [acceptJump]
  cases JumpRequest.decode data with
  | error fault => exact .inl rfl
  | ok request =>
    cases stage with
    | idle => exact .inl rfl
    | receiving manifest written chunks => exact .inl rfl
    | complete manifest =>
      exact (finalize_asks hg hu hrange).run
        (fun _ _ => Procedure.Asks.bind (leave_asks hrange) fun _ _ => .inr ⟨manifest, rfl, rfl⟩)
        fun _ => .inl rfl
    | installed manifest => exact Procedure.Asks.bind (leave_asks hrange) fun _ _ => .inl rfl

/-- Whatever a node is sent, it keeps to the places of its layout and stays in range. -/
theorem respond_asks (hg : layout.Paged g) (hu : layout.Usable g) {stage : Stage}
    (datagram : Datagram) (hrange : stage.InRange g layout) :
    (respond g layout stage datagram).Asks
      (Request.Within (layout.extents g) (layout.extents g))
      fun outcome => outcome.2.InRange g layout := by
  simp only [respond]
  split
  · refine (acceptJump_asks hg hu datagram.data hrange).imp
      (fun _ h => h.widen (Layout.application_sub_extents g layout)) ?_
    rintro ⟨result, stage'⟩ (rfl | ⟨manifest, rfl, rfl⟩)
    · exact hrange
    · exact hrange
  · exact (acceptManifest_asks hu datagram.data).imp
      (fun _ h => h.widen (Layout.staging_sub_extents g layout)) fun _ h => h
  · exact acceptChunk_asks hg hu datagram hrange
  · exact hrange

end Installer

/-! ## Trials -/

namespace Trial

variable {g : Geometry} {layout : Layout} {trial : Trial g}

/-- The node has no layout yet, or what it knows of the image under way fits its layout. -/
def InRange (layout : Layout) (trial : Trial g) : Prop :=
  trial.installer = .uninitialized
    ∨ ∃ stage, trial.installer = .ready layout stage ∧ stage.InRange g layout

theorem inRange_fresh (device : Device g) : (fresh device).InRange layout := .inl rfl

theorem act_process (stage : Stage) (previous : Option Manifest) (datagram : Datagram) :
    (Operation.process datagram).act g layout (.ready layout stage) previous
      = Installer.respond g layout stage datagram >>= fun outcome =>
        pure (.ready layout outcome.2, Installer.announced? previous datagram outcome.1) := by
  rw [Operation.act, Installer.process_ready, bind_assoc]
  rfl

/-- An operation that handles no datagram changes nothing, and the most it does to an update is to
forget it. -/
theorem act_still (hg : layout.Paged g) (hu : layout.Usable g) (stage : Stage)
    (previous : Option Manifest) {operation : Operation}
    (hstill : ∀ datagram, operation ≠ .process datagram) :
    (operation.act g layout (.ready layout stage) previous).Asks
      (Request.Within (layout.applicationExtents g) [])
      fun outcome => outcome.1 = .ready layout stage ∨ outcome.1 = .ready layout .idle := by
  cases operation with
  | process datagram => exact absurd rfl (hstill datagram)
  | failSafeJump => exact (Installer.failSafeJump_asks hg stage).bind fun _ _ => .inl rfl
  | checkInstalled =>
    exact Procedure.Asks.bind (Installer.checkInstalled_asks hg stage) fun _ _ => .inl rfl
  | installedImage =>
    exact Procedure.Asks.bind (Installer.installedImage_asks hg stage) fun _ _ => .inl rfl
  | configure =>
    refine Procedure.asks_pure (.inr ?_)
    rw [Installer.configure, Layout.check_eq_ok hu]
  | planFault operation skip => exact Procedure.asks_pure (.inl rfl)

/-- Every operation keeps to the places of the layout and stays in range. -/
theorem act_asks (hg : layout.Paged g) (hu : layout.Usable g) {stage : Stage}
    (hrange : stage.InRange g layout) (previous : Option Manifest) (operation : Operation) :
    (operation.act g layout (.ready layout stage) previous).Asks
      (Request.Within (layout.extents g) (layout.extents g))
      fun outcome => ∃ stage, outcome.1 = .ready layout stage ∧ stage.InRange g layout := by
  by_cases hprocess : ∃ datagram, operation = .process datagram
  · obtain ⟨datagram, rfl⟩ := hprocess
    rw [act_process]
    exact (Installer.respond_asks hg hu datagram hrange).bind fun outcome h =>
      ⟨outcome.2, rfl, h⟩
  · refine (act_still hg hu stage previous fun datagram heq => hprocess ⟨datagram, heq⟩).imp
      (fun _ h => (h.reading (Layout.application_sub_extents g layout)).widen nofun) ?_
    rintro ⟨_, _⟩ (rfl | rfl)
    · exact ⟨stage, rfl, hrange⟩
    · exact ⟨.idle, rfl, trivial⟩

/-- Planning a fault does not change what flash holds. -/
theorem prepare_memory (device : Device g) (operation : Operation) :
    (operation.prepare device).flash.memory = device.flash.memory := by
  cases operation <;> rfl

theorem prepare_glitch (device : Device g) (operation : Operation) :
    (operation.prepare device).flash.glitch = device.flash.glitch := by
  cases operation <;> rfl

theorem step_glitch (h : trial.device.flash.glitch = none) (operation : Operation) :
    (trial.step layout operation).device.flash.glitch = none :=
  Procedure.run_glitch _ ((prepare_glitch trial.device operation).trans h)

/-- What comes of an operation on a node without a layout. -/
theorem step_uninitialized (hu : layout.Usable g) (hnone : trial.installer = .uninitialized)
    (operation : Operation) :
    ((trial.step layout operation).installer = .uninitialized
        ∨ (trial.step layout operation).installer = .ready layout .idle)
      ∧ (trial.step layout operation).device.flash.memory = trial.device.flash.memory := by
  obtain ⟨installer, hact, hinstaller⟩ := act_uninitialized hu trial.last? operation
  rw [step, hnone, hact]
  exact ⟨hinstaller, prepare_memory trial.device operation⟩

/-- What comes of handling a datagram. -/
theorem step_process {stage : Stage} (hstage : trial.installer = .ready layout stage)
    (datagram : Datagram) :
    trial.step layout (.process datagram)
      = { installer := .ready layout
            ((Installer.respond g layout stage datagram).run trial.device).1.2
          device := ((Installer.respond g layout stage datagram).run trial.device).2
          last? := Installer.announced? trial.last? datagram
            ((Installer.respond g layout stage datagram).run trial.device).1.1 } := by
  rw [step, hstage, act_process, Procedure.run_bind]
  rfl

/-- What comes of an operation that handles no datagram. -/
theorem step_still (hg : layout.Paged g) (hu : layout.Usable g) {stage : Stage}
    (hstage : trial.installer = .ready layout stage) {operation : Operation}
    (hstill : ∀ datagram, operation ≠ .process datagram) :
    ((trial.step layout operation).installer = .ready layout stage
        ∨ (trial.step layout operation).installer = .ready layout .idle)
      ∧ (trial.step layout operation).device.flash.memory = trial.device.flash.memory := by
  obtain ⟨hinstaller, hsame⟩ := ((act_still hg hu stage trial.last? hstill).confined
    (operation.prepare trial.device)).2
  rw [step, hstage]
  refine ⟨hinstaller, ?_⟩
  rw [hsame.memory_eq, prepare_memory]

theorem step_inRange (hg : layout.Paged g) (hu : layout.Usable g) (hrange : trial.InRange layout)
    (operation : Operation) : (trial.step layout operation).InRange layout := by
  rcases hrange with hnone | ⟨stage, hstage, hrange⟩
  · exact (step_uninitialized hu hnone operation).1.imp id fun heq => ⟨.idle, heq, trivial⟩
  · rw [step, hstage]
    exact .inr ((act_asks hg hu hrange trial.last? operation).ensures _).2

/-- Every request of an operation lies in the places of the layout. -/
theorem moment_within (hg : layout.Paged g) (hu : layout.Usable g) (hrange : trial.InRange layout)
    {operation : Operation} {moment : Moment g} (hmem : moment ∈ trial.moments layout operation) :
    moment.request.Within (layout.extents g) (layout.extents g) := by
  obtain ⟨step, hstep, rfl⟩ := List.mem_map.1 hmem
  rcases hrange with hnone | ⟨stage, hstage, hrange⟩
  · obtain ⟨installer, hact, -⟩ := act_uninitialized hu trial.last? operation
    rw [hnone, hact] at hstep
    cases hstep
  · rw [hstage] at hstep
    exact ((act_asks hg hu hrange trial.last? operation).ensures _).1 step hstep

/-- Every request of a trial lies in the places of the layout. -/
theorem history_within (hg : layout.Paged g) (hu : layout.Usable g) (hrange : trial.InRange layout)
    (operations : List Operation) :
    ∀ moment ∈ trial.history layout operations,
      moment.request.Within (layout.extents g) (layout.extents g) := by
  induction operations generalizing trial with
  | nil =>
    intro moment hmem
    cases hmem
  | cons operation operations ih =>
    intro moment hmem
    rcases List.mem_append.1 hmem with hmem | hmem
    · exact moment_within hg hu hrange hmem
    · exact ih (step_inRange hg hu hrange operation) moment hmem

end Trial

/-! ## A small part -/

namespace Pocket

/-- A part of three pages, one for each place of the layout. -/
def geometry : Geometry where
  writeSize := 4
  eraseSize := 32
  capacity := 96

def layout : Layout where
  staging := 0
  active := 32
  regionSize := 32
  record? := some 64

theorem geometry_regular : geometry.Regular := ⟨by decide, by decide, by decide⟩

theorem layout_usable : layout.Usable geometry := by decide

end Pocket

end Reflash
