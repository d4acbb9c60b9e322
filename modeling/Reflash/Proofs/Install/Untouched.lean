/-
  Reflash.Proofs.Install.Untouched

  A download leaves the installed application alone. Until an installation has read
  back a staged image with the announced checksum, nothing that is done with a node,
  and nothing that fails of it, changes a byte of the active region or of the record
  page, so that the application passes its check exactly as it did before.
-/
import Reflash.Proofs.Install.Receiving

namespace Reflash

/-! ## Going on from where a task has stopped -/

namespace FlashTask

variable {α β : Type} {g : Geometry} {task : FlashTask α} {device : Device g}
  {during : Request → Device g → Prop} {after : Except Fault α → Device g → Prop}

/-- What a task does, followed by what is done with the result or the fault that it has. -/
theorem ensures_run {next : Except Fault α → Procedure β} {after' : β → Device g → Prop}
    (h : task.run.Ensures device during after)
    (hok : ∀ a, (task.run.run device).1 = .ok a → after (.ok a) (task.run.run device).2 →
      (next (.ok a)).Ensures (task.run.run device).2 during after')
    (herr : ∀ fault, (task.run.run device).1 = .error fault →
      after (.error fault) (task.run.run device).2 →
      (next (.error fault)).Ensures (task.run.run device).2 during after') :
    (task.run >>= next).Ensures device during after' := by
  have hrun : task.run.Ensures device during fun outcome device' =>
      outcome = (task.run.run device).1 ∧ device' = (task.run.run device).2 := ⟨h.1, rfl, rfl⟩
  have hafter := h.2
  refine hrun.bind ?_
  rintro outcome _ ⟨houtcome, rfl⟩
  rw [← houtcome] at hafter
  cases outcome with
  | ok a => exact hok a houtcome.symm hafter
  | error fault => exact herr fault houtcome.symm hafter

/-- The same inside a task. -/
theorem ensures_bind_run {next : α → FlashTask β} {after' : Except Fault β → Device g → Prop}
    (h : task.run.Ensures device during after)
    (hok : ∀ a, (task.run.run device).1 = .ok a → after (.ok a) (task.run.run device).2 →
      (next a).run.Ensures (task.run.run device).2 during after')
    (herr : ∀ fault, (task.run.run device).1 = .error fault →
      after (.error fault) (task.run.run device).2 →
      after' (.error fault) (task.run.run device).2) :
    (task >>= next).run.Ensures device during after' :=
  ensures_run h hok fun fault hrun hafter => Procedure.ensures_pure (herr fault hrun hafter)

end FlashTask

/-! ## What is left alone -/

namespace Layout

variable {g : Geometry} {layout : Layout}

/-- Every byte of the active region and of the record page is what it was. -/
def Untouched (layout : Layout) (before after : Flash g) : Prop :=
  ∀ extent ∈ layout.applicationExtents g, ∀ place, extent.first ≤ place → place < extent.last →
    after.memory[place]? = before.memory[place]?

/-- What the check of the application says when nothing is planned to fail. -/
def verdict (layout : Layout) (device : Device g) : Except Fault Unit :=
  ((Installer.checkInstalled (.ready layout .idle)).run.run
    { device with flash := { device.flash with fault := none } }).1

/-- Changes in the staging region leave the application alone. -/
theorem untouched_of_sameOutside (hu : layout.Usable g) {before after : Flash g}
    (h : Flash.SameOutside [layout.stagingExtent] before after) :
    layout.Untouched before after := by
  intro extent hmem place hfirst hlast
  have hapart := application_apart hu extent hmem
  refine h place ?_
  intro staging hstaging
  rw [List.mem_singleton.1 hstaging, Extent.Excludes]
  simp only [stagingExtent]
  omega

/-- What the check says depends on the application and its record only. -/
theorem Untouched.verdict_eq (hg : layout.Paged g) {before after : Device g}
    (h : layout.Untouched before.flash after.flash) :
    layout.verdict after = layout.verdict before := by
  refine (Installer.checkInstalled_asks hg .idle).run_congr rfl rfl ?_
  intro extent hmem offset length hcovers
  refine Flash.slice_congr fun place hlow hhigh => ?_
  have hend := hcovers.2
  exact h extent hmem place (Nat.le_trans hcovers.1 hlow) (by omega)

end Layout

namespace Installer

variable {g : Geometry} {layout : Layout}

/-! ## Installations -/

/-- The image that handling a datagram begins to install, with the device that the installation
finds, if it comes to that. -/
def installation? (g : Geometry) (layout : Layout) (stage : Stage) (datagram : Datagram)
    (device : Device g) : Option (Manifest × Device g) :=
  match datagram.kind, stage with
  | .jumpToApp, .complete manifest =>
    if (JumpRequest.decode datagram.data).isOk then some (manifest, device) else none
  | .firmwareChunk, .receiving manifest written chunks =>
    let outcome :=
      (writeChunk g (layout.staging + written) datagram.data).run.run device
    if refuseChunk g manifest written chunks datagram = none ∧ outcome.1.isOk
        ∧ written + datagram.data.length = manifest.size.toNat then
      some (manifest, outcome.2)
    else none
  | _, _ => none

/-- Handling the datagram goes through the installation that it begins. -/
theorem installation?_trace {stage : Stage} {datagram : Datagram} {device : Device g}
    {image : Manifest × Device g}
    (himage : image ∈ installation? g layout stage datagram device) :
    ∃ front back, (respond g layout stage datagram).trace device
      = front ++ (finalize g layout image.1).run.trace image.2 ++ back := by
  simp only [installation?] at himage
  split at himage
  · next manifest hkind =>
    split at himage
    · next hdecode =>
      obtain rfl := Option.mem_some.1 himage
      cases hrequest : JumpRequest.decode datagram.data with
      | error fault => rw [hrequest] at hdecode; cases hdecode
      | ok request =>
        simp only [respond, hkind, acceptJump, hrequest, Procedure.trace_bind]
        exact ⟨[], _, rfl⟩
    · cases himage
  · next manifest written chunks hkind =>
    split at himage
    · next hready =>
      obtain ⟨hrefuse, hwritten, hlast⟩ := hready
      obtain rfl := Option.mem_some.1 himage
      rw [respond_chunk hkind, acceptChunk, hrefuse]
      simp only [Procedure.trace_bind]
      refine ⟨(writeChunk g (layout.staging + written) datagram.data).run.trace device, ?_⟩
      cases houtcome : ((writeChunk g (layout.staging + written) datagram.data).run.run device).1
        with
      | error fault => rw [houtcome] at hwritten; cases hwritten
      | ok _ =>
        simp only [hlast, ne_eq, not_true_eq_false, if_false, Procedure.trace_bind]
        exact ⟨_, (List.append_assoc _ _ _).symm⟩
    · cases himage
  · cases himage

/-- The staged image reads back with the announced checksum. -/
def Matches (layout : Layout) (manifest : Manifest) (device : Device g) : Prop :=
  ((Pages.crc layout.staging manifest.size.toNat).run.run device).1.toOption = some manifest.crc

instance (manifest : Manifest) (device : Device g) : Decidable (Matches layout manifest device) :=
  inferInstanceAs (Decidable (_ = _))

/-- An installation whose image does not match ends in a fault and changes nothing. -/
theorem finalize_mismatch (g : Geometry) {manifest : Manifest} (hadmits : layout.Admits manifest)
    {device : Device g} (hmatch : ¬Matches layout manifest device) :
    (finalize g layout manifest).run.Ensures device
      (fun _ device' => Flash.SameOutside [] device.flash device'.flash)
      (fun outcome device' => (∃ fault, outcome = .error fault)
        ∧ Flash.SameOutside [] device.flash device'.flash) := by
  have hcovers : layout.stagingExtent.Covers layout.staging manifest.size.toNat :=
    ⟨Nat.le_refl _, Nat.add_le_add_left hadmits.2 _⟩
  have hcrc : (Pages.crc layout.staging manifest.size.toNat).Asks
      (Request.Within (layout.extents g) []) fun _ => True :=
    Pages.crc_asks (Layout.stagingExtent_mem g layout) hcovers
  rw [finalize_eq, checkImage, bind_assoc]
  simp only [FlashTask.check_bind]
  refine FlashTask.ensures_bind_run (hcrc.sameOutside device) ?_
    fun fault _ hsame => ⟨⟨fault, rfl⟩, hsame⟩
  intro crc hread hsame
  -- All that is erased and programmed comes behind the check of the checksum.
  have hcheck : crc ≠ manifest.crc := by
    rintro rfl
    exact hmatch (by rw [Matches, hread]; rfl)
  rw [if_pos hcheck]
  exact Procedure.ensures_pure ⟨⟨_, rfl⟩, hsame⟩

variable {device : Device g} {stage : Stage} {datagram : Datagram}

/-- What a procedure may do to a part that it only changes in the staging region. -/
abbrev StagesOnly {α : Type} (layout : Layout) (procedure : Procedure α) (device : Device g) :
    Prop :=
  procedure.Ensures device
    (fun _ device' => Flash.SameOutside [layout.stagingExtent] device.flash device'.flash)
    (fun _ device' => Flash.SameOutside [layout.stagingExtent] device.flash device'.flash)

theorem stagesOnly_pure {α : Type} (a : α) : StagesOnly layout (pure a : Procedure α) device :=
  Procedure.ensures_pure (Flash.SameOutside.refl _ _)

theorem acceptJump_untouched (hrange : stage.InRange g layout)
    (hkind : datagram.kind = .jumpToApp)
    (hnone : ∀ image ∈ installation? g layout stage datagram device,
      ¬Matches layout image.1 image.2) :
    StagesOnly layout (acceptJump g layout stage datagram.data) device := by
  have hsub : ∀ extent ∈ ([] : List Extent), extent ∈ [layout.stagingExtent] := nofun
  simp only [acceptJump]
  cases hdecode : JumpRequest.decode datagram.data with
  | error fault => exact stagesOnly_pure _
  | ok request =>
    cases stage with
    | idle => exact stagesOnly_pure _
    | receiving manifest written chunks => exact stagesOnly_pure _
    | complete manifest =>
      -- An installation that has failed is tried again.
      have hmatch : ¬Matches layout manifest device := by
        refine hnone (manifest, device) ?_
        simp only [installation?, hkind, hdecode]
        rfl
      refine Procedure.Ensures.bind ((finalize_mismatch g hrange hmatch).imp
        (fun _ _ h => h.widen hsub) fun _ _ h => h) ?_
      rintro _ device' ⟨⟨fault, rfl⟩, hsame⟩
      exact Procedure.ensures_pure (hsame.widen hsub)
    | installed manifest =>
      -- The application is checked, which only reads.
      have hleave : (leave layout manifest).Asks (Request.Within (layout.extents g) [])
          fun _ => True := leave_asks hrange
      refine Procedure.Ensures.bind ((hleave.sameOutside device).imp
        (fun _ _ h => h.widen hsub) fun _ _ h => h) ?_
      intro fault device' hsame
      exact Procedure.ensures_pure (hsame.widen hsub)

theorem acceptChunk_untouched (hg : layout.Paged g) (hu : layout.Usable g) {manifest : Manifest}
    {written chunks : Nat} (hrange : (Stage.receiving manifest written chunks).InRange g layout)
    (hkind : datagram.kind = .firmwareChunk)
    (hnone : ∀ image ∈ installation? g layout (.receiving manifest written chunks) datagram device,
      ¬Matches layout image.1 image.2) :
    StagesOnly layout (acceptChunk g layout manifest written chunks datagram) device := by
  have hsub : ∀ extent ∈ ([] : List Extent), extent ∈ [layout.stagingExtent] := nofun
  obtain ⟨hadmits, hlt, hdvd⟩ := hrange
  rw [acceptChunk]
  cases hrefuse : refuseChunk g manifest written chunks datagram with
  | some fault => exact stagesOnly_pure _
  | none =>
    refine FlashTask.ensures_run ((stageChunk_asks hg hu hadmits hlt hdvd hrefuse).sameOutside
      device) ?_ fun fault _ hsame => Procedure.ensures_pure hsame
    intro _ hwrite hsame
    show Procedure.Ensures (if written + datagram.data.length ≠ manifest.size.toNat then _
      else _) _ _ _
    by_cases hmore : written + datagram.data.length ≠ manifest.size.toNat
    · rw [if_pos hmore]
      exact Procedure.ensures_pure hsame
    rw [if_neg hmore]
    -- The installation finds the device as the chunk has left it.
    have hmatch : ¬Matches layout manifest
        ((writeChunk g (layout.staging + written) datagram.data).run.run device).2 := by
      refine hnone (manifest, _) ?_
      simp only [installation?, hkind]
      rw [if_pos ⟨hrefuse, by rw [hwrite]; rfl, Classical.not_not.1 hmore⟩]
      rfl
    refine Procedure.Ensures.bind ((finalize_mismatch g hadmits hmatch).imp
      (fun _ _ h => hsame.trans (h.widen hsub)) fun _ _ h => h) ?_
    rintro _ device' ⟨⟨fault, rfl⟩, hsame'⟩
    exact Procedure.ensures_pure (hsame.trans (hsame'.widen hsub))

/-- Unless an installation begins with an image that matches, handling a datagram changes the
staging region only. -/
theorem respond_untouched (hg : layout.Paged g) (hu : layout.Usable g)
    (hrange : stage.InRange g layout)
    (hnone : ∀ image ∈ installation? g layout stage datagram device,
      ¬Matches layout image.1 image.2) :
    StagesOnly layout (respond g layout stage datagram) device := by
  simp only [respond]
  split
  next hkind => exact acceptJump_untouched hrange hkind hnone
  next => exact (acceptManifest_asks hu datagram.data).sameOutside device
  next hkind => exact acceptChunk_untouched hg hu hrange hkind hnone
  next => exact stagesOnly_pure _

end Installer

/-! ## Trials -/

namespace Trial

variable {g : Geometry} {layout : Layout} {trial : Trial g}

/-- The image that an operation begins to install, with the device that the installation finds. -/
def installation? (layout : Layout) (trial : Trial g) (operation : Operation) :
    Option (Manifest × Device g) :=
  match operation, trial.installer with
  | .process datagram, .ready _ stage =>
    Installer.installation? g layout stage datagram trial.device
  | _, _ => none

/-- An operation installs an image that matches its announcement. -/
def Matches (layout : Layout) (trial : Trial g) (operation : Operation) : Prop :=
  ∃ image, image ∈ trial.installation? layout operation
    ∧ Installer.Matches layout image.1 image.2

instance (operation : Operation) : Decidable (trial.Matches layout operation) :=
  inferInstanceAs (Decidable (∃ image, image ∈ _ ∧ _))

/-- None of the operations that a trial goes on with installs an image that matches its
announcement. -/
def Mismatches (layout : Layout) : Trial g → List Operation → Prop
  | _, [] => True
  | trial, operation :: operations =>
    ¬trial.Matches layout operation ∧ Mismatches layout (trial.step layout operation) operations

/-- The trial after the operations. -/
def run (layout : Layout) : Trial g → List Operation → Trial g :=
  List.foldl (step layout)

/-- What an operation does that installs nothing: the staging region is all that it changes. -/
theorem act_untouched (hg : layout.Paged g) (hu : layout.Usable g) (hrange : trial.InRange layout)
    {operation : Operation} (hnone : ¬trial.Matches layout operation) :
    Installer.StagesOnly layout (operation.act g layout trial.installer trial.last?)
      (operation.prepare trial.device) := by
  rcases hrange with heq | ⟨stage, hstage, hrange⟩
  · obtain ⟨installer, hact, -⟩ := act_uninitialized hu trial.last? operation
    rw [heq, hact]
    exact Installer.stagesOnly_pure _
  rw [hstage]
  by_cases hprocess : ∃ datagram, operation = .process datagram
  · obtain ⟨datagram, rfl⟩ := hprocess
    rw [act_process]
    refine (Installer.respond_untouched hg hu hrange ?_).bind fun _ _ hsame =>
      Procedure.ensures_pure hsame
    intro image hmem hmatch
    refine hnone ⟨image, ?_, hmatch⟩
    simp only [installation?, hstage]
    exact hmem
  · have hstill : ∀ datagram, operation ≠ .process datagram :=
      fun datagram heq => hprocess ⟨datagram, heq⟩
    exact ((act_still hg hu stage trial.last? hstill).sameOutside _).imp
      (fun _ _ h => h.widen nofun) fun _ _ h => h.widen nofun

/-- As long as nothing is installed, the staging region is all that changes. -/
theorem history_untouched (hg : layout.Paged g) (hu : layout.Usable g)
    (hrange : trial.InRange layout) {operations : List Operation}
    (hnone : trial.Mismatches layout operations) :
    (∀ moment ∈ trial.history layout operations,
        Flash.SameOutside [layout.stagingExtent] trial.device.flash moment.device.flash)
      ∧ Flash.SameOutside [layout.stagingExtent] trial.device.flash
        (trial.run layout operations).device.flash := by
  induction operations generalizing trial with
  | nil =>
    refine ⟨?_, Flash.SameOutside.refl _ _⟩
    intro moment hmem
    cases hmem
  | cons operation operations ih =>
    have hact := act_untouched hg hu hrange hnone.1
    have hprepare := Flash.sameOutside_of_memory_eq (prepare_memory trial.device operation)
      [layout.stagingExtent]
    have hstep : Flash.SameOutside [layout.stagingExtent] trial.device.flash
        (trial.step layout operation).device.flash := hprepare.trans hact.2
    obtain ⟨hmoments, hend⟩ := ih (step_inRange hg hu hrange operation) hnone.2
    refine ⟨?_, hstep.trans hend⟩
    intro moment hmem
    rcases List.mem_append.1 hmem with hmem | hmem
    · obtain ⟨request, hrequest, rfl⟩ := List.mem_map.1 hmem
      exact hprepare.trans (hact.1 request hrequest)
    · exact hstep.trans (hmoments moment hmem)

/-- Whatever is done with a node, whatever its flash held and whichever requests fail: until an
installation has read back an image that matches its announcement, every byte of the active region
and of the record page is what it was at the start, after every single request and at the end, and
the check of the application says what it said at the start. -/
theorem application_untouched (hg : g.Regular) (hu : layout.Usable g) (device : Device g)
    {operations : List Operation} (hnone : (fresh device).Mismatches layout operations) :
    (∀ moment ∈ (fresh device).history layout operations,
        layout.Untouched device.flash moment.device.flash
          ∧ layout.verdict moment.device = layout.verdict device)
      ∧ layout.Untouched device.flash ((fresh device).run layout operations).device.flash
      ∧ layout.verdict ((fresh device).run layout operations).device = layout.verdict device := by
  obtain ⟨hmoments, hend⟩ :=
    history_untouched (hg.paged layout) hu (inRange_fresh device) hnone
  have huntouched := Layout.untouched_of_sameOutside hu hend
  refine ⟨?_, huntouched, huntouched.verdict_eq (hg.paged layout)⟩
  intro moment hmem
  have hmoment := Layout.untouched_of_sameOutside hu (hmoments moment hmem)
  exact ⟨hmoment, hmoment.verdict_eq (hg.paged layout)⟩

/-- An application of one byte, with its record. -/
def pocketDevice : Device Pocket.geometry where
  flash := (({} : Flash Pocket.geometry).preload 32 [0x07]).preload 64
    (Record.encode (Board.describe [0x07]))

/-- The application survives an image that does not match. -/
theorem application_untouched_pocket :
    ((fresh pocketDevice).run Pocket.layout Reception.pocketOperations).installer
        = .ready Pocket.layout (.complete Reception.pocketManifest)
      ∧ (Pocket.layout.verdict
        ((fresh pocketDevice).run Pocket.layout Reception.pocketOperations).device).toOption
          = some () := by
  have hnone : (fresh pocketDevice).Mismatches Pocket.layout Reception.pocketOperations :=
    ⟨by decide +kernel, by decide +kernel, by decide +kernel, by decide +kernel, trivial⟩
  obtain ⟨-, -, hverdict⟩ :=
    application_untouched Pocket.geometry_regular Pocket.layout_usable pocketDevice hnone
  rw [hverdict]
  exact ⟨by decide +kernel, by decide +kernel⟩

end Trial

end Reflash
