/-
  Reflash.Proofs.Install.Trial

  Trials of a node: any operations in any order, any requests of them planned to
  fail, on a part that may hold anything. All through a trial the node jumps only to
  an image that its record vouches for, and a part that was sound at the start is
  sound after every single request, so that it may lose power anywhere.
-/
import Reflash.Board
import Reflash.Proofs.Install.Process

namespace Reflash

/-! ## Trials -/

/-- What can be done with a node. -/
inductive Operation where
  | process (datagram : Datagram)
  | failSafeJump
  | checkInstalled
  | installedImage
  /-- Adopts the layout, at first or again. -/
  | configure
  /-- Has one more request fail. -/
  | planFault (operation : FlashOperation) (skip : Nat)

structure Trial (g : Geometry) where
  installer : Installer := .uninitialized
  device : Device g
  /-- The manifest of the last announcement that was accepted. -/
  last? : Option Manifest := none

/-- A request made in a trial, with the device right after it. -/
structure Moment (g : Geometry) where
  operation : Operation
  /-- The manifest of the last announcement that was accepted before the operation. -/
  last? : Option Manifest
  request : Request
  device : Device g

namespace Operation

/-- The device that the operation finds. -/
def prepare {g : Geometry} (device : Device g) : Operation → Device g
  | planFault operation skip => { device with flash := device.flash.failAfter operation skip }
  | _ => device

/-- What the operation does: the installer and the last announcement afterwards. -/
def act (g : Geometry) (layout : Layout) (installer : Installer) (previous : Option Manifest) :
    Operation → Procedure (Installer × Option Manifest)
  | process datagram => do
    let outcome ← installer.process g datagram
    pure (outcome.2, Installer.announced? previous datagram outcome.1)
  | failSafeJump => do
    let _ ← installer.failSafeJump
    pure (installer, previous)
  | checkInstalled => do
    let _ ← installer.checkInstalled.run
    pure (installer, previous)
  | installedImage => do
    let _ ← installer.installedImage.run
    pure (installer, previous)
  | configure => pure ((installer.configure g layout).2, previous)
  | planFault .. => pure (installer, previous)

end Operation

namespace Trial

variable {g : Geometry}

/-- The trial after one more operation. -/
def step (layout : Layout) (trial : Trial g) (operation : Operation) : Trial g :=
  let outcome := (operation.act g layout trial.installer trial.last?).run
    (operation.prepare trial.device)
  { installer := outcome.1.1, device := outcome.2, last? := outcome.1.2 }

/-- The requests that one more operation makes. -/
def moments (layout : Layout) (trial : Trial g) (operation : Operation) : List (Moment g) :=
  ((operation.act g layout trial.installer trial.last?).trace
    (operation.prepare trial.device)).map fun step =>
      { operation, last? := trial.last?, request := step.1, device := step.2 }

/-- All requests of a trial that goes on with the given operations. -/
def history (layout : Layout) : Trial g → List Operation → List (Moment g)
  | _, [] => []
  | trial, operation :: operations =>
    trial.moments layout operation ++ history layout (trial.step layout operation) operations

/-! ## Between two operations -/

/-- The node has no layout yet, or flash backs the state of its update, and the image under way
is the one last announced. -/
structure Valid (layout : Layout) (trial : Trial g) : Prop where
  glitch_eq : trial.device.flash.glitch = none
  state : trial.installer = .uninitialized ∨ ∃ stage, trial.installer = .ready layout stage
    ∧ stage.Backed layout trial.device.flash
    ∧ ∀ manifest, trial.installer.manifest? = some manifest → trial.last? = some manifest

end Trial

/-- A jump is made with a record that vouches for the active region, and if a jump request has
led to it the record is that of the image last announced. -/
def Moment.Verified {g : Geometry} (layout : Layout) (moment : Moment g) : Prop :=
  ∃ record, layout.recorded? moment.device.flash = some record ∧ layout.Admits record
    ∧ layout.Runs record moment.device.flash
    ∧ ∀ datagram, moment.operation = .process datagram → moment.last? = some record

/-- What a single request of an operation may do. -/
def Moment.Allowed {g : Geometry} (layout : Layout) (flash : Flash g) (moment : Moment g) : Prop :=
  (layout.Sound flash → layout.Sound moment.device.flash)
    ∧ ∀ target, moment.request = .jump target → moment.Verified layout

/-! ## Soundness at the end of a procedure -/

/-- What holds at the start and after every request holds at the end. -/
theorem Procedure.run_of_trace {α : Type} {g : Geometry} (property : Device g → Prop)
    (procedure : Procedure α) {device : Device g} (hstart : property device)
    (h : ∀ step ∈ procedure.trace device, property step.2) :
    property (procedure.run device).2 := by
  induction procedure generalizing device with
  | done result => exact hstart
  | read offset length next ih =>
    exact ih _ (h _ List.mem_cons_self) fun step hstep => h step (List.mem_cons_of_mem _ hstep)
  | write offset bytes next ih =>
    exact ih _ (h _ List.mem_cons_self) fun step hstep => h step (List.mem_cons_of_mem _ hstep)
  | erase first last next ih =>
    exact ih _ (h _ List.mem_cons_self) fun step hstep => h step (List.mem_cons_of_mem _ hstep)
  | jump target next ih =>
    exact ih (h _ List.mem_cons_self) fun step hstep => h step (List.mem_cons_of_mem _ hstep)

namespace Installer

variable {g : Geometry} {layout : Layout} {device : Device g}

/-! ## The other operations -/

theorem checkInstalled_ensures (stage : Stage) (hg : layout.Paged g) (hu : layout.Usable g)
    {offset : Nat} (hrecord : layout.record? = some offset) (hglitch : device.flash.glitch = none) :
    (checkInstalled (.ready layout stage)).Ensures device.flash (Flash.Kept device.flash)
      (fun _ after => Flash.Kept device.flash after ∧ layout.Vouched device.flash)
      (fun fault after => Flash.Kept device.flash after
        ∧ (FlashTask.Failing device.flash fault ∨ ¬layout.Vouched device.flash)) :=
  ensures_checkActive hg hu hrecord hglitch

theorem installedImage_reads (stage : Stage) (hg : layout.Paged g) (hu : layout.Usable g)
    (hglitch : device.flash.glitch = none) :
    (installedImage (.ready layout stage)).Reads device.flash
      (layout.recorded? device.flash) := by
  cases hrecord : layout.record? with
  | none =>
    rw [installedImage, hrecord, Layout.recorded?, hrecord]
    exact FlashTask.reads_pure hglitch _
  | some offset =>
    rw [installedImage, hrecord]
    exact Record.load_reads hg hglitch hu hrecord

/-- A fail safe jump changes no flash, and is made only where a record vouches for the active
region. -/
theorem failSafeJump_ensures (stage : Stage) (hg : layout.Paged g) (hu : layout.Usable g)
    {offset : Nat} (hrecord : layout.record? = some offset) (hglitch : device.flash.glitch = none) :
    (failSafeJump (.ready layout stage)).Ensures device
      (fun request device' => Flash.Kept device.flash device'.flash
        ∧ ∀ target, request = .jump target → layout.Vouched device'.flash)
      (fun _ device' => Flash.Kept device.flash device'.flash) := by
  refine (checkInstalled_ensures stage hg hu hrecord hglitch).run ?_ ?_ ?_
  · intro request flash' hjump hkept
    exact ⟨hkept, fun target heq => absurd heq (hjump target)⟩
  · rintro _ flash' ⟨hkept, hvouched⟩
    refine ⟨?_, hkept⟩
    intro step hstep
    obtain rfl := List.mem_singleton.1 hstep
    exact ⟨hkept, fun _ _ => hvouched.congr hkept.memory_eq⟩
  · rintro fault flash' ⟨hkept, -⟩
    exact Procedure.ensures_pure hkept

/-- Where a record vouches for the active region and no request fails, the jump is made. -/
theorem failSafeJump_jumps (stage : Stage) (hg : layout.Paged g) (hu : layout.Usable g)
    {offset : Nat} (hrecord : layout.record? = some offset) (hglitch : device.flash.glitch = none)
    (hfault : device.flash.fault = none) (hvouched : layout.Vouched device.flash) :
    ∃ step ∈ (failSafeJump (.ready layout stage)).trace device,
      step.1 = .jump .application := by
  have hcheck := (checkInstalled_ensures stage hg hu hrecord hglitch device.jumper).2
  rw [failSafeJump, Procedure.trace_bind]
  revert hcheck
  cases ((checkInstalled (.ready layout stage)).run.run device).1 with
  | error fault =>
    rintro ⟨-, -, hfailing | hnot⟩
    · exact absurd hfailing (FlashTask.not_failing hfault)
    · exact absurd hvouched hnot
  | ok _ =>
    intro _
    exact ⟨_, List.mem_append_right _ List.mem_cons_self, rfl⟩

end Installer

namespace Trial

variable {g : Geometry} {layout : Layout} {trial : Trial g}

/-! ## One operation -/

/-- Without a layout an operation makes no request, and the most it does is to adopt one. -/
theorem act_uninitialized (hu : layout.Usable g) (previous : Option Manifest)
    (operation : Operation) :
    ∃ installer, operation.act g layout .uninitialized previous = pure (installer, previous)
      ∧ (installer = .uninitialized ∨ installer = .ready layout .idle) := by
  cases operation with
  | process datagram =>
    refine ⟨.uninitialized, ?_, .inl rfl⟩
    show (pure (Installer.uninitialized, Installer.announced? previous datagram _) : Procedure _)
      = _
    rw [Installer.announced?_error]
  | failSafeJump => exact ⟨.uninitialized, rfl, .inl rfl⟩
  | checkInstalled => exact ⟨.uninitialized, rfl, .inl rfl⟩
  | installedImage => exact ⟨.uninitialized, rfl, .inl rfl⟩
  | configure =>
    refine ⟨.ready layout .idle, ?_, .inr rfl⟩
    rw [Operation.act, Installer.configure, Layout.check_eq_ok hu]
  | planFault operation skip => exact ⟨.uninitialized, rfl, .inl rfl⟩

theorem Valid.kept (h : trial.Valid layout) {device' : Device g}
    (hkept : Flash.Kept trial.device.flash device'.flash) :
    Valid layout { trial with device := device' } := by
  refine ⟨hkept.glitch_eq, ?_⟩
  rcases h.state with hnone | ⟨stage, hstage, hbacked, hlast⟩
  · exact .inl hnone
  · exact .inr ⟨stage, hstage, hbacked.congr hkept.memory_eq, hlast⟩

/-- Requests that jump nowhere and leave flash as it is are allowed. -/
theorem allowed_of_kept {moment : Moment g} {flash : Flash g}
    (hjump : ∀ target, moment.request ≠ .jump target)
    (hkept : Flash.Kept flash moment.device.flash) : moment.Allowed layout flash :=
  ⟨fun hsound => hsound.congr hkept.memory_eq, fun target heq => absurd heq (hjump target)⟩

/-- Reading what flash holds is allowed and leaves the trial as it is. -/
theorem ensures_reading {α : Type} {task : FlashTask α} (hvalid : trial.Valid layout)
    (operation : Operation) {ok : α → Flash g → Prop} {err : Fault → Flash g → Prop}
    (h : task.Ensures trial.device.flash (Flash.Kept trial.device.flash)
      (fun a after => Flash.Kept trial.device.flash after ∧ ok a after)
      (fun fault after => Flash.Kept trial.device.flash after ∧ err fault after)) :
    (task.run >>= fun _ => (pure (trial.installer, trial.last?) :
        Procedure (Installer × Option Manifest))).Ensures trial.device
      (fun request device' =>
        Moment.Allowed layout trial.device.flash ⟨operation, trial.last?, request, device'⟩)
      (fun outcome device' => Valid layout ⟨outcome.1, device', outcome.2⟩) := by
  refine h.run ?_ ?_ ?_
  · intro request flash' hjump hkept
    exact allowed_of_kept hjump hkept
  · rintro a flash' ⟨hkept, -⟩
    exact Procedure.ensures_pure (hvalid.kept hkept)
  · rintro fault flash' ⟨hkept, -⟩
    exact Procedure.ensures_pure (hvalid.kept hkept)

/-- Every request of an operation is allowed, and the operation keeps the trial valid. -/
theorem act_ensures (hg : layout.Paged g) (hu : layout.Usable g) {offset : Nat}
    (hrecord : layout.record? = some offset) (hvalid : trial.Valid layout)
    (operation : Operation) :
    (operation.act g layout trial.installer trial.last?).Ensures (operation.prepare trial.device)
      (fun request device' =>
        Moment.Allowed layout trial.device.flash ⟨operation, trial.last?, request, device'⟩)
      (fun outcome device' => Valid layout ⟨outcome.1, device', outcome.2⟩) := by
  -- Planning a fault changes neither the bytes nor the planned loss of bits.
  have hprepare : (operation.prepare trial.device).flash.memory = trial.device.flash.memory
      ∧ (operation.prepare trial.device).flash.glitch = none := by
    cases operation <;> exact ⟨rfl, hvalid.glitch_eq⟩
  rcases hvalid.state with hnone | ⟨stage, hstage, hbacked, hlast⟩
  · obtain ⟨installer, hact, hinstaller⟩ := act_uninitialized hu trial.last? operation
    rw [hnone, hact]
    refine Procedure.ensures_pure ⟨hprepare.2, ?_⟩
    rcases hinstaller with rfl | rfl
    · exact .inl rfl
    · exact .inr ⟨.idle, rfl, trivial, nofun⟩
  cases operation with
  | process datagram =>
    rw [hstage] at hlast ⊢
    refine Procedure.Ensures.bind ((Installer.process_ensures hg hu hbacked
      hvalid.glitch_eq).imp ?_ fun _ _ h => h) ?_
    · rintro request device' ⟨hsound, hjump⟩
      refine ⟨hsound, fun target heq => ?_⟩
      obtain ⟨manifest, hmanifest, hadmits, hinstalled⟩ := hjump target heq
      refine ⟨manifest, ?_, hadmits, hinstalled.2, fun _ _ => hlast manifest hmanifest⟩
      rw [hinstalled.1, hrecord]
      rfl
    · rintro ⟨result, _⟩ device' ⟨stage', rfl, hbacked', hglitch', hlast'⟩
      exact Procedure.ensures_pure
        ⟨hglitch', .inr ⟨stage', rfl, hbacked', hlast' trial.last? hlast⟩⟩
  | failSafeJump =>
    have hjump := Installer.failSafeJump_ensures stage hg hu hrecord hvalid.glitch_eq
    rw [← hstage] at hjump
    refine Procedure.Ensures.bind (hjump.imp ?_ fun _ _ h => h) ?_
    · rintro request device' ⟨hkept, hvouched⟩
      refine ⟨fun hsound => hsound.congr hkept.memory_eq, fun target heq => ?_⟩
      obtain ⟨record, hrecorded, hadmits, hruns⟩ := hvouched target heq
      exact ⟨record, hrecorded, hadmits, hruns, nofun⟩
    · intro reason device' hkept
      exact Procedure.ensures_pure (hvalid.kept hkept)
  | checkInstalled =>
    have hcheck := Installer.checkInstalled_ensures stage hg hu hrecord hvalid.glitch_eq
    rw [← hstage] at hcheck
    exact ensures_reading hvalid .checkInstalled hcheck
  | installedImage =>
    have hreads := Installer.installedImage_reads stage hg hu hvalid.glitch_eq
    rw [← hstage] at hreads
    exact ensures_reading hvalid .installedImage
      (hreads.imp (fun _ h => h) (fun _ _ h => ⟨h.2, h.1⟩) fun _ _ h => ⟨h.2, h.1⟩)
  | configure =>
    refine Procedure.ensures_pure ⟨hvalid.glitch_eq, .inr ⟨.idle, ?_, trivial, ?_⟩⟩
    · rw [Installer.configure, Layout.check_eq_ok hu]
    · rw [Installer.configure, Layout.check_eq_ok hu]
      nofun
  | planFault operation skip =>
    refine Procedure.ensures_pure ⟨hprepare.2, .inr ⟨stage, hstage, ?_, hlast⟩⟩
    exact hbacked.congr hprepare.1

theorem history_configure (hu : layout.Usable g) (operations : List Operation) :
    trial.history layout (.configure :: operations)
      = { trial with installer := .ready layout .idle }.history layout operations := by
  have hconfigure : trial.installer.configure g layout = (.ok (), .ready layout .idle) := by
    rw [Installer.configure, Layout.check_eq_ok hu]
  rw [history, step, moments, Operation.act, hconfigure]
  rfl

theorem mem_history {operation : Operation} {operations : List Operation}
    {step : Request × Device g}
    (h : step ∈ (operation.act g layout trial.installer trial.last?).trace
      (operation.prepare trial.device)) :
    ⟨operation, trial.last?, step.1, step.2⟩ ∈ trial.history layout (operation :: operations) :=
  List.mem_append_left _ (List.mem_map_of_mem h)

/-! ## Whole trials -/

theorem step_valid (hg : layout.Paged g) (hu : layout.Usable g) {offset : Nat}
    (hrecord : layout.record? = some offset) (hvalid : trial.Valid layout)
    (operation : Operation) : (trial.step layout operation).Valid layout :=
  (act_ensures hg hu hrecord hvalid operation).2

theorem moment_allowed (hg : layout.Paged g) (hu : layout.Usable g) {offset : Nat}
    (hrecord : layout.record? = some offset) (hvalid : trial.Valid layout)
    {operation : Operation} {moment : Moment g} (hmem : moment ∈ trial.moments layout operation) :
    moment.Allowed layout trial.device.flash := by
  obtain ⟨step, hstep, rfl⟩ := List.mem_map.1 hmem
  exact (act_ensures hg hu hrecord hvalid operation).1 step hstep

theorem step_sound (hg : layout.Paged g) (hu : layout.Usable g) {offset : Nat}
    (hrecord : layout.record? = some offset) (hvalid : trial.Valid layout)
    (hsound : layout.Sound trial.device.flash) (operation : Operation) :
    layout.Sound (trial.step layout operation).device.flash := by
  have hprepare : (operation.prepare trial.device).flash.memory = trial.device.flash.memory := by
    cases operation <;> rfl
  refine Procedure.run_of_trace (fun device => layout.Sound device.flash) _
    (hsound.congr hprepare) ?_
  intro step hstep
  exact ((act_ensures hg hu hrecord hvalid operation).1 step hstep).1 hsound

theorem history_verified (hg : layout.Paged g) (hu : layout.Usable g) {offset : Nat}
    (hrecord : layout.record? = some offset) (hvalid : trial.Valid layout)
    (operations : List Operation) :
    ∀ moment ∈ trial.history layout operations, ∀ target, moment.request = .jump target →
      moment.Verified layout := by
  induction operations generalizing trial with
  | nil =>
    intro moment hmem
    cases hmem
  | cons operation operations ih =>
    intro moment hmem
    rcases List.mem_append.1 hmem with hmem | hmem
    · exact (moment_allowed hg hu hrecord hvalid hmem).2
    · exact ih (step_valid hg hu hrecord hvalid operation) moment hmem

theorem history_sound (hg : layout.Paged g) (hu : layout.Usable g) {offset : Nat}
    (hrecord : layout.record? = some offset) (hvalid : trial.Valid layout)
    (hsound : layout.Sound trial.device.flash) (operations : List Operation) :
    ∀ moment ∈ trial.history layout operations, layout.Sound moment.device.flash := by
  induction operations generalizing trial with
  | nil =>
    intro moment hmem
    cases hmem
  | cons operation operations ih =>
    intro moment hmem
    rcases List.mem_append.1 hmem with hmem | hmem
    · exact (moment_allowed hg hu hrecord hvalid hmem).1 hsound
    · exact ih (step_valid hg hu hrecord hvalid operation)
        (step_sound hg hu hrecord hvalid hsound operation) moment hmem

end Trial

/-! ## On the board -/

namespace Board

theorem geometry_regular : geometry.Regular :=
  ⟨by decide, by decide, by decide⟩

/-- The record of an application. -/
def describe (application : Bytes) : Manifest where
  size := .ofNat application.length
  crc := Crc32.padded application
  id := default

/-- The board with an application and its record. -/
def programmed (application : Bytes) : Device geometry where
  flash := (({} : Flash geometry).preload activeOffset application).preload recordOffset
    (Record.encode (describe application))

theorem programmed_vouched (application : Bytes) (hpos : 0 < application.length)
    (hfits : application.length ≤ regionSize) :
    layout.Vouched (programmed application).flash := by
  have hregion : regionSize = 0xF0000 := rfl
  have hsize : (describe application).size.toNat = application.length := by
    show (UInt32.ofNat application.length).toNat = application.length
    rw [UInt32.toNat_ofNat']
    omega
  have hactive : activeOffset = 0x11000 := rfl
  have hoffset : recordOffset = 0x10000 := rfl
  have hcapacity : geometry.capacity = 0x200000 := rfl
  obtain ⟨first, hfirst⟩ : ∃ first : Flash geometry,
      first = ({} : Flash geometry).preload activeOffset application := ⟨_, rfl⟩
  have hmemory : (programmed application).flash.memory
      = Flash.patch first.memory recordOffset (Record.encode (describe application)) := by
    rw [hfirst]
    rfl
  have hlength : (Record.encode (describe application)).length = 32 := Record.length_encode _
  have hrecord := Flash.slice_patch_self hmemory (by omega)
  refine ⟨describe application, ?_, ⟨by omega, by rw [hsize]; exact hfits⟩, ?_⟩
  · rw [Layout.recorded?_eq (show layout.record? = some recordOffset from rfl)]
    rw [hlength] at hrecord
    have hdecode := Record.decode?_encode (describe application) []
    rw [List.append_nil] at hdecode
    exact (congrArg Record.decode? hrecord).trans hdecode
  · have himage : first.slice activeOffset application.length = application := by
      refine Flash.slice_patch_self (a := {}) ?_ (by omega)
      rw [hfirst]
      rfl
    have happ : (programmed application).flash.slice activeOffset application.length
        = application := by
      rw [Flash.slice_patch_apart hmemory (by omega), himage]
    show Crc32.padded ((programmed application).flash.slice activeOffset _) = _
    rw [hsize, happ]
    rfl

/-- The announcement of an image of one byte. -/
def announcement : Datagram where
  header := { kind := .firmwareMetadata, total := 26, packets := 1 }
  slots := [some (Manifest.encode { size := 1, crc := 0, id := default })]

end Board

namespace Trial

variable {g : Geometry} {layout : Layout}

/-! ## From the start -/

/-- A node that nothing has been done with. -/
def fresh (device : Device g) : Trial g := { device }

theorem valid_fresh {device : Device g} (hglitch : device.flash.glitch = none) :
    (fresh device).Valid layout :=
  ⟨hglitch, .inl rfl⟩

/-- Whatever is done with a node, whatever its flash held and whichever requests fail: when it
jumps, the record page holds a record of an image that fits the active region and has the
recorded checksum there, and if a jump request has led to the jump it is the record of the image
last announced. -/
theorem jump_verified (hg : g.Regular) (hu : layout.Usable g) {offset : Nat}
    (hrecord : layout.record? = some offset) (device : Device g)
    (hglitch : device.flash.glitch = none) (operations : List Operation) :
    ∀ moment ∈ (fresh device).history layout operations,
      ∀ target, moment.request = .jump target → moment.Verified layout :=
  history_verified (hg.paged layout) hu hrecord (valid_fresh hglitch) operations

/-- A new node with an application gets to run it. -/
theorem jump_verified_board :
    ∃ moment ∈ (fresh (Board.programmed [0x01, 0x02, 0x03])).history Board.layout
        [.configure, .failSafeJump],
      moment.request = .jump .application ∧ moment.Verified Board.layout := by
  have hrecord : Board.layout.record? = some Board.recordOffset := rfl
  have hvouched := Board.programmed_vouched [0x01, 0x02, 0x03] (by decide) (by decide)
  obtain ⟨step, hstep, hjump⟩ := Installer.failSafeJump_jumps .idle (Board.geometry_regular.paged _)
    Board.layout_usable hrecord rfl rfl hvouched
  have hmem : ⟨.failSafeJump, none, step.1, step.2⟩
      ∈ (fresh (Board.programmed [0x01, 0x02, 0x03])).history Board.layout
        [.configure, .failSafeJump] := by
    rw [history_configure Board.layout_usable]
    apply mem_history
    rw [Operation.act, Procedure.trace_bind]
    exact List.mem_append_left _ hstep
  exact ⟨_, hmem, hjump, jump_verified Board.geometry_regular Board.layout_usable hrecord _ rfl _ _
    hmem .application hjump⟩

/-- Whatever is done with a node and whichever requests fail, its flash is sound after every
single request if it was sound at first: no power cut leaves a record that vouches for anything
but the image in the active region. -/
theorem sound_throughout (hg : g.Regular) (hu : layout.Usable g) {offset : Nat}
    (hrecord : layout.record? = some offset) (device : Device g)
    (hglitch : device.flash.glitch = none) (hsound : layout.Sound device.flash)
    (operations : List Operation) :
    ∀ moment ∈ (fresh device).history layout operations, layout.Sound moment.device.flash :=
  history_sound (hg.paged layout) hu hrecord (valid_fresh hglitch) hsound operations

/-- Clearing room for an image does not touch what the record vouches for. -/
theorem sound_throughout_board :
    ∃ moment ∈ (fresh (Board.programmed [0x01, 0x02, 0x03])).history Board.layout
        [.configure, .process Board.announcement],
      moment.request = .erase Board.stagingOffset (Board.stagingOffset + 0x1000)
        ∧ Board.layout.Sound moment.device.flash := by
  have hrecord : Board.layout.record? = some Board.recordOffset := rfl
  have hsound := (Board.programmed_vouched [0x01, 0x02, 0x03] (by decide) (by decide)).sound
  obtain ⟨step, hstep, herase⟩ := Installer.acceptManifest_erases Board.layout
    (show Manifest.decode Board.announcement.data = .ok { size := 1, crc := 0 } from rfl)
    ⟨by decide, by decide⟩ (Board.programmed [0x01, 0x02, 0x03])
  have hmem : ⟨.process Board.announcement, none, step.1, step.2⟩
      ∈ (fresh (Board.programmed [0x01, 0x02, 0x03])).history Board.layout
        [.configure, .process Board.announcement] := by
    rw [history_configure Board.layout_usable]
    apply mem_history
    rw [Operation.act, Procedure.trace_bind, Installer.process_ready, Procedure.trace_bind]
    exact List.mem_append_left _ (List.mem_append_left _ hstep)
  exact ⟨_, hmem, herase, sound_throughout Board.geometry_regular Board.layout_usable hrecord _ rfl
    hsound _ _ hmem⟩

end Trial

end Reflash
