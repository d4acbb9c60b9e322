/-
  Reflash.Proofs.Install.Resumption

  An installation may be cut short at any request and begun again. The update still
  knows of the image, and the image is still staged; a jump request begins the
  installation anew, or goes on to leave once all of it has been done. What an
  installation ends with does not depend on what its places held before, so that the
  one that comes through after any number of failures leaves the part as a single one
  would have left it, byte for byte.
-/
import Reflash.Proofs.Install.Access

namespace Reflash

open FlashTask (Failing)

/-! ## What an installation ends with -/

namespace Layout

variable {g : Geometry} {layout : Layout} {manifest : Manifest}

/-- What `before` has staged is installed in `after`: the pages of the image are in the active
region, its record is in the record page, and nothing else has changed. -/
structure Renewed (layout : Layout) (manifest : Manifest) (before after : Flash g) : Prop where
  same : Flash.SameOutside (layout.installExtents g manifest.size.toNat) before after
  slice_eq : after.slice layout.active (Pages.span g manifest.size.toNat)
    = before.slice layout.staging (Pages.span g manifest.size.toNat)
  recorded : layout.Recorded manifest after

theorem Renewed.congr {before after after' : Flash g} (h : layout.Renewed manifest before after)
    (hmemory : after'.memory = after.memory) : layout.Renewed manifest before after' := by
  refine ⟨h.same.trans (Flash.sameOutside_of_memory_eq hmemory _), ?_, ?_⟩
  · rw [Flash.slice_of_memory_eq hmemory]
    exact h.slice_eq
  · intro offset hrecord
    rw [Flash.slice_of_memory_eq hmemory]
    exact h.recorded offset hrecord

/-- There is only one way for what is staged to be installed. -/
theorem Renewed.memory_eq {before a b : Flash g} (ha : layout.Renewed manifest before a)
    (hb : layout.Renewed manifest before b) : a.memory = b.memory := by
  refine Flash.memory_ext fun place _ => ?_
  -- In the active region both hold what is staged, in the record page both hold the record.
  by_cases hactive : layout.active ≤ place
      ∧ place < layout.active + Pages.span g manifest.size.toNat
  · exact Flash.getElem?_of_slice_eq (ha.slice_eq.trans hb.slice_eq.symm) hactive.1 hactive.2
  by_cases hpage : ∃ offset, layout.record? = some offset ∧ offset ≤ place
      ∧ place < offset + g.eraseSize
  · obtain ⟨offset, hrecord, hlow, hhigh⟩ := hpage
    exact Flash.getElem?_of_slice_eq
      ((ha.recorded offset hrecord).trans (hb.recorded offset hrecord).symm) hlow hhigh
  -- Everywhere else the installation has not been.
  have hout : ∀ extent ∈ layout.installExtents g manifest.size.toNat, extent.Excludes place := by
    intro extent hmem
    rw [Extent.Excludes]
    rcases List.mem_cons.1 hmem with rfl | hmem
    · simp only
      omega
    · obtain ⟨offset, hrecord, rfl⟩ := mem_recordPage.1 hmem
      have hnot : ¬(offset ≤ place ∧ place < offset + g.eraseSize) :=
        fun hin => hpage ⟨offset, hrecord, hin⟩
      simp only
      omega
  exact (ha.same place hout).trans (hb.same place hout).symm

/-- An installation does not change what is staged. -/
theorem staging_eq_of_same (hu : layout.Usable g) (hadmits : layout.Admits manifest)
    {before after : Flash g}
    (h : Flash.SameOutside (layout.installExtents g manifest.size.toNat) before after)
    {length : Nat} (hlength : length ≤ layout.regionSize) :
    after.slice layout.staging length = before.slice layout.staging length :=
  h.slice_eq (installExtents_clear_staging hu hadmits.2 (Nat.le_refl _)
    (Nat.add_le_add_left hlength _))

/-- What is staged is the same before and after an installation that has been cut short. -/
theorem Renewed.of_same (hu : layout.Usable g) (hadmits : layout.Admits manifest)
    {before mid after : Flash g}
    (hsame : Flash.SameOutside (layout.installExtents g manifest.size.toNat) before mid)
    (h : layout.Renewed manifest mid after) : layout.Renewed manifest before after :=
  ⟨hsame.trans h.same,
    h.slice_eq.trans (staging_eq_of_same hu hadmits hsame (hu.span_le_region hadmits.2)),
    h.recorded⟩

/-- The installed image is the staged one. -/
theorem Renewed.image_eq (hpage : 0 < g.eraseSize) {before after : Flash g}
    (h : layout.Renewed manifest before after) :
    after.slice layout.active manifest.size.toNat
      = before.slice layout.staging manifest.size.toNat := by
  have hle := Pages.le_span hpage manifest.size.toNat
  rw [← Flash.slice_take after _ hle, h.slice_eq, Flash.slice_take before _ hle]

/-- Whether the staged image is blank. -/
def stagesBlank (layout : Layout) (manifest : Manifest) (flash : Flash g) : Bool :=
  (flash.slice layout.staging manifest.size.toNat).all (· == Flash.erasedByte)

/-- What a node answers that has installed the staged image and leaves for it: the jump comes back,
and a blank image is not jumped to. -/
def parting (layout : Layout) (manifest : Manifest) (flash : Flash g) : Fault :=
  if layout.stagesBlank manifest flash then .flashVerificationFailed else .bootloaderFailure

end Layout

namespace Installer

variable {g : Geometry} {layout : Layout} {manifest : Manifest} {origin : Flash g}

/-- Where the staged image is the announced one, only a request that fails stops its
installation. -/
theorem finalize_renews (hg : layout.Paged g) (hu : layout.Usable g)
    (hadmits : layout.Admits manifest) {flash : Flash g} (hglitch : flash.glitch = none)
    (hcrc : Crc32.padded (flash.slice layout.staging manifest.size.toNat) = manifest.crc) :
    (finalize g layout manifest).Ensures flash (fun _ => True)
      (fun _ after => Flash.Changed (layout.installExtents g manifest.size.toNat) flash after
        ∧ layout.Renewed manifest flash after)
      (fun fault after => Failing flash fault
        ∧ Flash.Changed (layout.installExtents g manifest.size.toNat) flash after) := by
  refine (ensures_finalize hg hu hadmits.2 hglitch).imp (fun _ _ => trivial) ?_ ?_
  · rintro _ after ⟨hchanged, -, hslice, hrecorded⟩
    exact ⟨hchanged, hchanged.byte_eq, hslice, hrecorded⟩
  · rintro fault after ⟨hinstalling, hfailing | ⟨-, hne⟩⟩
    · exact ⟨hfailing, hinstalling.changed⟩
    · exact absurd hcrc hne

/-! ## One more attempt -/

/-- How far the installation of what `origin` has staged has come: it may be begun anew, or all of
it has been done. -/
inductive Retryable (layout : Layout) (manifest : Manifest) (origin : Flash g) :
    Stage → Flash g → Prop
  | anew {now : Flash g}
      (same : Flash.SameOutside (layout.installExtents g manifest.size.toNat) origin now) :
      Retryable layout manifest origin (.complete manifest) now
  | done {now : Flash g} (renewed : layout.Renewed manifest origin now) :
      Retryable layout manifest origin (.installed manifest) now

theorem Retryable.same {stage : Stage} {now : Flash g}
    (h : Retryable layout manifest origin stage now) :
    Flash.SameOutside (layout.installExtents g manifest.size.toNat) origin now := by
  cases h with
  | anew same => exact same
  | done renewed => exact renewed.same

theorem Retryable.congr {stage : Stage} {now now' : Flash g}
    (h : Retryable layout manifest origin stage now) (hmemory : now'.memory = now.memory) :
    Retryable layout manifest origin stage now' := by
  cases h with
  | anew same => exact .anew (same.trans (Flash.sameOutside_of_memory_eq hmemory _))
  | done renewed => exact .done (renewed.congr hmemory)

theorem Retryable.inRange (hadmits : layout.Admits manifest) {stage : Stage} {now : Flash g}
    (h : Retryable layout manifest origin stage now) : stage.InRange g layout := by
  cases h with
  | anew same => exact hadmits
  | done renewed => exact hadmits

/-- What comes of a jump request. -/
inductive RetryOutcome (layout : Layout) (manifest : Manifest) (origin before : Flash g) :
    Except Fault Unit × Stage → Flash g → Prop
  | failed {fault : Fault} {stage : Stage} {after : Flash g} (failing : Failing before fault)
      (retryable : Retryable layout manifest origin stage after) :
      RetryOutcome layout manifest origin before (.error fault, stage) after
  | left {after : Flash g} (renewed : layout.Renewed manifest origin after) :
      RetryOutcome layout manifest origin before
        (.error (layout.parting manifest origin), .installed manifest) after

theorem RetryOutcome.retryable {before after : Flash g} {outcome : Except Fault Unit × Stage}
    (h : RetryOutcome layout manifest origin before outcome after) :
    Retryable layout manifest origin outcome.2 after := by
  cases h with
  | failed failing retryable => exact retryable
  | left renewed => exact .done renewed

/-- Leaving for an image that has been installed. -/
theorem leaving_retries (hu : layout.Usable g) (hadmits : layout.Admits manifest)
    {before : Flash g} {device : Device g} (hrenewed : layout.Renewed manifest origin device.flash)
    (hchanged : Flash.Changed (layout.installExtents g manifest.size.toNat) before device.flash) :
    (leave layout manifest >>= fun fault =>
      (pure (.error fault, .installed manifest) : Procedure (Except Fault Unit × Stage))).Ensures
      device (fun _ _ => True)
      (fun outcome device' => device'.flash.glitch = none
        ∧ RetryOutcome layout manifest origin before outcome device'.flash) := by
  have himage := hrenewed.image_eq hu.page_pos
  refine Procedure.Ensures.bind ((ensures_leave hu hadmits.2 hchanged.glitch_eq).imp
    (fun _ _ _ => trivial) fun _ _ h => h) ?_
  intro fault device' h
  refine Procedure.ensures_pure ⟨h.kept.glitch_eq, ?_⟩
  cases h with
  | jumped kept written jumper_eq =>
    rw [himage] at written
    have hparting : layout.parting manifest origin = .bootloaderFailure :=
      if_neg (by rw [Layout.stagesBlank, written]; exact Bool.false_ne_true)
    rw [← hparting]
    exact .left (hrenewed.congr kept.memory_eq)
  | blank kept blank jumper_eq =>
    rw [himage] at blank
    have hparting : layout.parting manifest origin = .flashVerificationFailed := if_pos blank
    rw [← hparting]
    exact .left (hrenewed.congr kept.memory_eq)
  | failed kept failing =>
    exact .failed (failing.of_changed hchanged) (.done (hrenewed.congr kept.memory_eq))

/-- A jump request that is obeyed goes through with the installation unless a request fails, and
can be made again if one does. -/
theorem acceptJump_retries (hg : layout.Paged g) (hu : layout.Usable g)
    (hadmits : layout.Admits manifest)
    (hcrc : Crc32.padded (origin.slice layout.staging manifest.size.toNat) = manifest.crc)
    {stage : Stage} {device : Device g} (h : Retryable layout manifest origin stage device.flash)
    (hglitch : device.flash.glitch = none) {data : Bytes}
    (hdecode : (JumpRequest.decode data).isOk) :
    (acceptJump g layout stage data).Ensures device (fun _ _ => True)
      (fun outcome device' => device'.flash.glitch = none
        ∧ RetryOutcome layout manifest origin device.flash outcome device'.flash) := by
  simp only [acceptJump]
  cases hrequest : JumpRequest.decode data with
  | error fault =>
    rw [hrequest] at hdecode
    cases hdecode
  | ok request =>
    cases h with
    | anew same =>
      -- What is staged is what it was at first, and still matches its announcement.
      rw [← Layout.staging_eq_of_same hu hadmits same hadmits.2] at hcrc
      refine (finalize_renews hg hu hadmits hglitch hcrc).run (fun _ _ _ _ => trivial) ?_ ?_
      · rintro _ after ⟨hchanged, hrenewed⟩
        exact leaving_retries hu hadmits (hrenewed.of_same hu hadmits same) hchanged
      · rintro fault after ⟨hfailing, hchanged⟩
        exact Procedure.ensures_pure
          ⟨hchanged.glitch_eq, .failed hfailing (.anew (same.trans hchanged.byte_eq))⟩
    | done renewed =>
      exact leaving_retries hu hadmits renewed ((Flash.Kept.refl hglitch).changed _)

end Installer

/-! ## Jumps -/

/-- Where a request hands control to, if it does. -/
def Request.target? : Request → Option JumpTarget
  | jump target => some target
  | _ => none

namespace Procedure

variable {α β : Type} {g : Geometry}

/-- The jumps that a run makes. -/
def jumps (procedure : Procedure α) (device : Device g) : List JumpTarget :=
  (procedure.trace device).filterMap fun step => step.1.target?

theorem jumps_bind (procedure : Procedure α) (next : α → Procedure β) (device : Device g) :
    (procedure >>= next).jumps device
      = procedure.jumps device
        ++ (next (procedure.run device).1).jumps (procedure.run device).2 := by
  rw [jumps, trace_bind, List.filterMap_append]
  rfl

end Procedure

/-- A task jumps nowhere. -/
theorem FlashTask.Ensures.jumps_eq {α : Type} {g : Geometry} {task : FlashTask α}
    {device : Device g} {during : Flash g → Prop} {ok : α → Flash g → Prop}
    {err : Fault → Flash g → Prop} (h : task.Ensures device.flash during ok err) :
    task.run.jumps device = [] := by
  refine List.filterMap_eq_nil_iff.2 fun step hstep => ?_
  have hjump := ((h device.jumper).1 step hstep).1
  cases hrequest : step.1 with
  | jump target => exact absurd hrequest (hjump target)
  | _ => rfl

namespace Installer

variable {g : Geometry} {layout : Layout}

/-- The jumps behind an answer: a jump that comes back is answered with its own fault. -/
def jumpsBehind (answer? : Option Fault) : List JumpTarget :=
  if answer? = some .bootloaderFailure then [.application] else []

theorem ne_bootloaderFailure_of_failing {flash : Flash g} {fault : Fault}
    (h : Failing flash fault) : fault ≠ .bootloaderFailure := by
  rcases h.2 with rfl | rfl | rfl
  all_goals nofun

/-- The bootloader is left exactly when the answer says that it was come back to. -/
theorem leave_jumps (hu : layout.Usable g) {manifest : Manifest} (hadmits : layout.Admits manifest)
    {device : Device g} (hglitch : device.flash.glitch = none) :
    (leave layout manifest).jumps device
      = jumpsBehind (some ((leave layout manifest).run device).1) := by
  have hfits := hadmits.2
  have hactive := hu.active_fits
  have hblank := Pages.isBlank_reads layout.active manifest.size.toNat hglitch (by omega)
  have hanswer := (hblank device.jumper).2.2
  rw [leave, Procedure.jumps_bind, Procedure.run_bind, hblank.jumps_eq, List.nil_append]
  cases hrun : ((Pages.isBlank layout.active manifest.size.toNat).run.run device).1 with
  | error fault =>
    rw [hrun] at hanswer
    have hne := ne_bootloaderFailure_of_failing hanswer.1
    exact (if_neg fun heq => hne (Option.some.inj heq)).symm
  | ok blank =>
    cases blank with
    | true => rfl
    | false => rfl

/-- A jump request leads to a jump exactly when the answer says that it was come back from. -/
theorem acceptJump_jumps (hg : layout.Paged g) (hu : layout.Usable g) {stage : Stage}
    (hrange : stage.InRange g layout) {device : Device g} (hglitch : device.flash.glitch = none)
    (data : Bytes) :
    (acceptJump g layout stage data).jumps device
      = jumpsBehind (answered? ((acceptJump g layout stage data).run device).1) := by
  have hleaving : ∀ {manifest : Manifest} {device' : Device g}, layout.Admits manifest →
      device'.flash.glitch = none →
      (leave layout manifest >>= fun fault =>
        (pure (.error fault, .installed manifest) : Procedure (Except Fault Unit × Stage))).jumps
          device'
        = jumpsBehind (answered? ((leave layout manifest >>= fun fault =>
          (pure (.error fault, .installed manifest) : Procedure (Except Fault Unit × Stage))).run
            device').1) := by
    intro manifest device' hadmits hglitch'
    rw [Procedure.jumps_bind, Procedure.run_bind, leave_jumps hu hadmits hglitch']
    exact List.append_nil _
  simp only [acceptJump]
  cases hdecode : JumpRequest.decode data with
  | error fault =>
    rw [JumpRequest.decode_error hdecode]
    rfl
  | ok request =>
    cases stage with
    | idle => rfl
    | receiving manifest written chunks => rfl
    | complete manifest =>
      -- An installation makes no jump, and what stops it is never a jump that came back.
      have hfinalize := ensures_finalize hg hu hrange.2 hglitch
      have hanswer := (hfinalize device.jumper).2.2
      simp only [Procedure.jumps_bind, Procedure.run_bind]
      rw [hfinalize.jumps_eq, List.nil_append]
      cases hrun : ((finalize g layout manifest).run.run device).1 with
      | error fault =>
        rw [hrun] at hanswer
        have hne : fault ≠ .bootloaderFailure := by
          rcases hanswer.2 with hfailing | ⟨rfl, -⟩
          · exact ne_bootloaderFailure_of_failing hfailing
          · decide
        exact (if_neg fun heq => hne (Option.some.inj heq)).symm
      | ok _ => exact hleaving hrange (Procedure.run_glitch _ hglitch)
    | installed manifest => exact hleaving hrange hglitch

end Installer

/-! ## Interrupted trials -/

/-- A jump request that is obeyed. -/
def Operation.RequestsJump (operation : Operation) : Prop :=
  ∃ datagram, operation = .process datagram ∧ datagram.kind = .jumpToApp
    ∧ (JumpRequest.decode datagram.data).isOk

/-- The jumps among the requests of a trial. -/
def Moment.jumps {g : Geometry} (moments : List (Moment g)) : List JumpTarget :=
  moments.filterMap (·.request.target?)

namespace Trial

variable {g : Geometry} {layout : Layout} {trial : Trial g} {manifest : Manifest}
  {origin : Flash g}

/-- Whether an operation meets the fault that is planned. -/
def Meets (layout : Layout) (trial : Trial g) (operation : Operation) : Prop :=
  trial.device.flash.fault ≠ none ∧ (trial.step layout operation).device.flash.fault = none

instance (operation : Operation) : Decidable (trial.Meets layout operation) :=
  inferInstanceAs (Decidable (_ ∧ _))

/-- A trial goes on with jump requests each of which meets a fault, and with planning faults. -/
def Interrupted (layout : Layout) : Trial g → List Operation → Prop
  | _, [] => True
  | trial, operation :: operations =>
    ((∃ kind skip, operation = .planFault kind skip)
        ∨ operation.RequestsJump ∧ trial.Meets layout operation)
      ∧ Interrupted layout (trial.step layout operation) operations

/-- What is staged is what was staged in `origin`, and its installation is still to be made or has
been made. -/
structure Resumable (layout : Layout) (manifest : Manifest) (origin : Flash g)
    (trial : Trial g) : Prop where
  installer_eq : trial.installer = .ready layout (.complete manifest)
    ∨ trial.installer = .ready layout (.installed manifest)
  staging_eq : trial.device.flash.slice layout.staging layout.regionSize
    = origin.slice layout.staging layout.regionSize

/-- What holds of a trial that goes on with attempts to install what `origin` has staged. -/
structure Retries (layout : Layout) (manifest : Manifest) (origin : Flash g)
    (trial : Trial g) : Prop where
  glitch_eq : trial.device.flash.glitch = none
  retryable : ∃ stage, trial.installer = .ready layout stage
    ∧ Installer.Retryable layout manifest origin stage trial.device.flash

theorem Retries.resumable (hu : layout.Usable g) (hadmits : layout.Admits manifest)
    (h : trial.Retries layout manifest origin) : trial.Resumable layout manifest origin := by
  obtain ⟨stage, hstage, hretryable⟩ := h.retryable
  refine ⟨?_, Layout.staging_eq_of_same hu hadmits hretryable.same (Nat.le_refl _)⟩
  rw [hstage]
  cases hretryable with
  | anew same => exact .inl rfl
  | done renewed => exact .inr rfl

/-- Planning a fault concerns no installation. -/
theorem Retries.plan (h : trial.Retries layout manifest origin) (kind : FlashOperation)
    (skip : Nat) : (trial.step layout (.planFault kind skip)).Retries layout manifest origin := by
  obtain ⟨stage, hstage, hretryable⟩ := h.retryable
  exact ⟨h.glitch_eq, stage, hstage, hretryable.congr rfl⟩

/-- An operation comes down to a procedure of the installer: it leaves the state and the device that
the procedure leaves, answers the same, and jumps where the procedure jumps. -/
structure CarriesOut (layout : Layout) (trial : Trial g) (operation : Operation)
    (procedure : Procedure (Except Fault Unit × Stage)) : Prop where
  installer_eq : (trial.step layout operation).installer
    = .ready layout (procedure.run trial.device).1.2
  device_eq : (trial.step layout operation).device = (procedure.run trial.device).2
  answered?_eq : trial.answered? layout operation
    = Installer.answered? (procedure.run trial.device).1
  jumps_eq : Moment.jumps (trial.moments layout operation) = procedure.jumps trial.device

theorem carriesOut_process {stage : Stage} (hstage : trial.installer = .ready layout stage)
    (datagram : Datagram) :
    trial.CarriesOut layout (.process datagram) (Installer.respond g layout stage datagram) where
  installer_eq := by rw [step_process hstage]
  device_eq := by rw [step_process hstage]
  answered?_eq := by
    rw [answered?, Operation.perform, hstage, Installer.process_ready, Procedure.run_bind,
      Procedure.run_bind]
    rfl
  jumps_eq := by
    rw [moments, hstage, act_process, Moment.jumps, List.filterMap_map, Procedure.trace_bind]
    exact congrArg _ (List.append_nil _)

theorem Retries.carriesOut (h : trial.Retries layout manifest origin) {operation : Operation}
    (hrequest : operation.RequestsJump) :
    ∃ data stage, (JumpRequest.decode data).isOk
      ∧ Installer.Retryable layout manifest origin stage trial.device.flash
      ∧ trial.CarriesOut layout operation (Installer.acceptJump g layout stage data) := by
  obtain ⟨datagram, rfl, hkind, hdecode⟩ := hrequest
  obtain ⟨stage, hstage, hretryable⟩ := h.retryable
  have hrespond : Installer.respond g layout stage datagram
      = Installer.acceptJump g layout stage datagram.data := by
    simp only [Installer.respond, hkind]
  exact ⟨datagram.data, stage, hdecode, hretryable, hrespond ▸ carriesOut_process hstage datagram⟩

/-- An attempt jumps exactly when its answer says that it was come back to. -/
theorem Retries.jumps_eq (hg : layout.Paged g) (hu : layout.Usable g)
    (hadmits : layout.Admits manifest) (h : trial.Retries layout manifest origin)
    {operation : Operation} (hrequest : operation.RequestsJump) :
    Moment.jumps (trial.moments layout operation)
      = Installer.jumpsBehind (trial.answered? layout operation) := by
  obtain ⟨data, stage, -, hretryable, hcarries⟩ := h.carriesOut hrequest
  rw [hcarries.jumps_eq, hcarries.answered?_eq,
    Installer.acceptJump_jumps hg hu (hretryable.inRange hadmits) h.glitch_eq]

/-- Planning a fault is all that a plan for one changes. -/
theorem prepare_calm {device : Device g} {operation : Operation}
    (h : (operation.prepare device).flash.fault = none) : device.flash.fault = none := by
  cases operation with
  | planFault kind skip => cases h
  | _ => exact h

/-- An operation that meets a fault answers with it. -/
theorem answered?_of_meets (hg : layout.Paged g) (hu : layout.Usable g)
    (hrange : trial.InRange layout) {operation : Operation}
    (hmeets : trial.Meets layout operation) :
    ∃ kind : FlashOperation, trial.answered? layout operation = some (.flash kind.failure) := by
  obtain ⟨hplanned, hgone⟩ := hmeets
  rw [step_device] at hgone
  rcases (perform_ensures hg hu hrange operation (operation.prepare trial.device)).2 with
    hfailed | ⟨-, hpending⟩
  · exact hfailed
  · exact absurd (prepare_calm (hpending hgone)) hplanned

variable (hg : layout.Paged g) (hu : layout.Usable g) (hadmits : layout.Admits manifest)

include hg hu hadmits

/-- A jump request that meets a fault leads to no jump. -/
theorem Retries.jumps_of_meets (h : trial.Retries layout manifest origin) {operation : Operation}
    (hrequest : operation.RequestsJump) (hmeets : trial.Meets layout operation) :
    Moment.jumps (trial.moments layout operation) = [] := by
  obtain ⟨stage, hstage, hretryable⟩ := h.retryable
  have hrange : trial.InRange layout := .inr ⟨stage, hstage, hretryable.inRange hadmits⟩
  obtain ⟨kind, hanswer⟩ := answered?_of_meets hg hu hrange hmeets
  rw [h.jumps_eq hg hu hadmits hrequest, hanswer]
  cases kind <;> rfl

variable (hcrc : Crc32.padded (origin.slice layout.staging manifest.size.toNat) = manifest.crc)

include hcrc

theorem Retries.jump (h : trial.Retries layout manifest origin) {operation : Operation}
    (hrequest : operation.RequestsJump) :
    (trial.step layout operation).Retries layout manifest origin := by
  obtain ⟨data, stage, hdecode, hretryable, hcarries⟩ := h.carriesOut hrequest
  obtain ⟨hglitch, houtcome⟩ := (Installer.acceptJump_retries hg hu hadmits hcrc hretryable
    h.glitch_eq hdecode).2
  rw [← hcarries.device_eq] at hglitch houtcome
  exact ⟨hglitch, _, hcarries.installer_eq, houtcome.retryable⟩

/-- A jump request that meets no fault installs what is staged, and leaves for it. -/
theorem Retries.finish (h : trial.Retries layout manifest origin) {operation : Operation}
    (hrequest : operation.RequestsJump) (hunmet : ¬trial.Meets layout operation) :
    (trial.step layout operation).installer = .ready layout (.installed manifest)
      ∧ layout.Renewed manifest origin (trial.step layout operation).device.flash
      ∧ trial.answered? layout operation = some (layout.parting manifest origin)
      ∧ Moment.jumps (trial.moments layout operation)
        = if layout.stagesBlank manifest origin then [] else [.application] := by
  obtain ⟨data, stage, hdecode, hretryable, hcarries⟩ := h.carriesOut hrequest
  rw [Meets, hcarries.device_eq] at hunmet
  -- The run is the one with nothing planned to fail.
  have hrun := Procedure.run_of_not_meets hunmet
  have hspared : Installer.Retryable layout manifest origin stage trial.device.spared.flash :=
    hretryable.congr rfl
  obtain ⟨-, houtcome⟩ := (Installer.acceptJump_retries hg hu hadmits hcrc hspared
    (show trial.device.spared.flash.glitch = none from h.glitch_eq) hdecode).2
  rw [hrun] at houtcome
  rw [h.jumps_eq hg hu hadmits hrequest, hcarries.installer_eq, hcarries.answered?_eq,
    hcarries.device_eq]
  generalize (Installer.acceptJump g layout stage data).run trial.device = done at houtcome
  obtain ⟨outcome, last⟩ := done
  cases houtcome with
  | failed failing retryable => exact absurd failing (FlashTask.not_failing rfl)
  | left renewed =>
    refine ⟨rfl, renewed.congr rfl, rfl, ?_⟩
    show Installer.jumpsBehind (some (layout.parting manifest origin)) = _
    rw [Layout.parting]
    cases layout.stagesBlank manifest origin <;> rfl

/-- However often the installation is cut short, it can be resumed, and nothing is jumped to. -/
theorem Retries.interrupted (h : trial.Retries layout manifest origin) {attempts : List Operation}
    (hattempts : trial.Interrupted layout attempts) :
    (trial.run layout attempts).Retries layout manifest origin
      ∧ Moment.jumps (trial.history layout attempts) = [] := by
  -- One attempt keeps all that the next one needs, whatever the fault has left undone.
  induction attempts generalizing trial with
  | nil => exact ⟨h, rfl⟩
  | cons operation attempts ih =>
    obtain ⟨hfirst, hrest⟩ := hattempts
    have hstep : (trial.step layout operation).Retries layout manifest origin
        ∧ Moment.jumps (trial.moments layout operation) = [] := by
      rcases hfirst with ⟨kind, skip, rfl⟩ | ⟨hrequest, hmeets⟩
      · exact ⟨h.plan kind skip, rfl⟩
      · exact ⟨h.jump hg hu hadmits hcrc hrequest, h.jumps_of_meets hg hu hadmits hrequest hmeets⟩
    obtain ⟨hend, hjumps⟩ := ih hstep.1 hrest
    refine ⟨hend, ?_⟩
    rw [history, Moment.jumps, List.filterMap_append]
    exact (congrArg (· ++ _) hstep.2).trans hjumps

omit hg hu hadmits hcrc

/-- An installation that nothing is planned to fail of comes through. -/
theorem finalize_spared (hg : layout.Paged g) (hu : layout.Usable g)
    (hadmits : layout.Admits manifest) {device : Device g} (hglitch : device.flash.glitch = none)
    (hcrc : Crc32.padded (device.flash.slice layout.staging manifest.size.toNat)
      = manifest.crc) :
    ((Installer.finalize g layout manifest).run.run device.spared).1 = .ok ()
      ∧ layout.Renewed manifest device.flash
        ((Installer.finalize g layout manifest).run.run device.spared).2.flash := by
  have hresult := (Installer.finalize_renews hg hu hadmits
    (show device.spared.flash.glitch = none from hglitch) hcrc device.spared.jumper).2.2
  cases hrun : ((Installer.finalize g layout manifest).run.run device.spared).1 with
  | error fault =>
    rw [hrun] at hresult
    exact absurd hresult.1 (FlashTask.not_failing rfl)
  | ok _ =>
    rw [hrun] at hresult
    obtain ⟨-, hsame, hslice, hrecorded⟩ := hresult
    exact ⟨rfl, hsame, hslice, hrecorded⟩

/-- Once an image that matches its announcement is staged, on a part that loses no bits of what is
programmed, its installation can be cut short anywhere and made again. However many jump requests
meet a fault, each is answered with its fault, the image stays staged and known, and nothing is
jumped to. The first that meets none leaves the flash that a single installation without faults
would have left, byte for byte, and jumps to the application unless the image is blank. -/
theorem installation_resumes (hg : g.Regular) (hu : layout.Usable g) (device : Device g)
    (operations : List Operation) {manifest : Manifest}
    (hcomplete : ((fresh device).run layout operations).installer
      = .ready layout (.complete manifest))
    (hglitch : ((fresh device).run layout operations).device.flash.glitch = none)
    (hcrc : Crc32.padded (((fresh device).run layout operations).device.flash.slice layout.staging
      manifest.size.toNat) = manifest.crc) :
    let origin := (fresh device).run layout operations
    let single := (Installer.finalize g layout manifest).run.run origin.device.spared
    single.1 = .ok () ∧ ∀ attempts, origin.Interrupted layout attempts →
      let trial := origin.run layout attempts
      trial.Resumable layout manifest origin.device.flash
        ∧ Moment.jumps (origin.history layout attempts) = []
        ∧ ∀ operation, operation.RequestsJump →
          (trial.Meets layout operation → ∃ kind : FlashOperation,
            trial.answered? layout operation = some (.flash kind.failure))
          ∧ (¬trial.Meets layout operation →
            (trial.step layout operation).installer = .ready layout (.installed manifest)
              ∧ (trial.step layout operation).device.flash.memory = single.2.flash.memory
              ∧ trial.answered? layout operation
                = some (layout.parting manifest origin.device.flash)
              ∧ Moment.jumps (trial.moments layout operation)
                = if layout.stagesBlank manifest origin.device.flash then []
                  else [.application]) := by
  have hp := hg.paged layout
  have hrange := run_inRange hp hu (inRange_fresh device) operations
  intro origin single
  have hadmits : layout.Admits manifest := by
    rcases hrange with hnone | ⟨stage, hstage, hadmits⟩
    · rw [hcomplete] at hnone
      cases hnone
    · rw [hcomplete] at hstage
      cases hstage
      exact hadmits
  -- The single installation and the last of many end with the same flash, for there is only one way
  -- for what is staged to be installed.
  obtain ⟨hok, hsingle⟩ := finalize_spared hp hu hadmits hglitch hcrc
  refine ⟨hok, fun attempts hattempts => ?_⟩
  have hretries : origin.Retries layout manifest origin.device.flash :=
    ⟨hglitch, _, hcomplete, .anew (Flash.SameOutside.refl _ _)⟩
  obtain ⟨hend, hjumps⟩ := hretries.interrupted hp hu hadmits hcrc hattempts
  refine ⟨hend.resumable hu hadmits, hjumps, fun operation hrequest => ⟨?_, ?_⟩⟩
  · exact answered?_of_meets hp hu (run_inRange hp hu hrange attempts)
  · intro hunmet
    obtain ⟨hinstaller, hrenewed, hanswer, hjump⟩ :=
      hend.finish hp hu hadmits hcrc hrequest hunmet
    exact ⟨hinstaller, hrenewed.memory_eq hsingle, hanswer, hjump⟩

def pocketImage : Manifest := Board.describe [1, 2, 3, 4, 5, 6]

/-- The download of a small image, at the end of which the record page cannot be erased. -/
def pocketDownload : List Operation :=
  [.configure, .process (pocketImage.toDatagram 0 none),
    .process (.pack .firmwareChunk 0 none [1, 2, 3, 4]), .planFault .erase 0,
    .process (.pack .firmwareChunk 1 none [5, 6])]

def pocketRequest : Operation := .process (({} : JumpRequest).toDatagram 0 none)

/-- An attempt that fails before the record is written, and one that fails behind it. -/
def pocketAttempts : List Operation :=
  [.planFault .erase 2, pocketRequest, .planFault .read 3, pocketRequest]

theorem installation_resumes_pocket :
    let origin := (fresh ({} : Device Pocket.geometry)).run Pocket.layout pocketDownload
    let trial := origin.run Pocket.layout pocketAttempts
    origin.Interrupted Pocket.layout pocketAttempts
      ∧ (trial.step Pocket.layout pocketRequest).device.flash.memory
        = ((Installer.finalize Pocket.geometry Pocket.layout pocketImage).run.run
          origin.device.spared).2.flash.memory
      ∧ Moment.jumps (trial.moments Pocket.layout pocketRequest) = [.application] := by
  intro origin trial
  have hrequest : pocketRequest.RequestsJump := ⟨_, rfl, rfl, by decide +kernel⟩
  have hattempts : origin.Interrupted Pocket.layout pocketAttempts :=
    ⟨.inl ⟨_, _, rfl⟩, .inr ⟨hrequest, by decide +kernel⟩, .inl ⟨_, _, rfl⟩,
      .inr ⟨hrequest, by decide +kernel⟩, trivial⟩
  have hcomplete : origin.installer = .ready Pocket.layout (.complete pocketImage) := by
    decide +kernel
  obtain ⟨-, hresumes⟩ := installation_resumes Pocket.geometry_regular Pocket.layout_usable
    ({} : Device Pocket.geometry) pocketDownload hcomplete (by decide +kernel)
    (by decide +kernel)
  obtain ⟨-, -, hfinish⟩ := hresumes pocketAttempts hattempts
  obtain ⟨-, hmemory, -, hjump⟩ := (hfinish pocketRequest hrequest).2 (by decide +kernel)
  exact ⟨hattempts, hmemory, hjump.trans (if_neg (by decide +kernel))⟩

end Trial

end Reflash
