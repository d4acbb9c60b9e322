/-
  Reflash.Proofs.Install.Process

  What handling one datagram can do, in whatever state the update is. What flash
  holds backs the state: behind what is staged of an image the cleared pages are
  erased, and an installed image is in the active region with its record. Handling a
  datagram keeps that up, jumps nowhere but to the installed image, and leaves after
  every request a part that is sound if it was sound before.
-/
import Reflash.Proofs.Install.Steps

namespace Reflash

open FlashTask (Failing)

/-! ## What backs a state -/

/-- The cleared pages from what is staged of an image on. -/
def Layout.rest (g : Geometry) (layout : Layout) (manifest : Manifest) (written : Nat) : Extent :=
  ⟨layout.staging + written,
    layout.staging + written + (Pages.span g manifest.size.toNat - written)⟩

/-- Behind what is staged of an image, the cleared pages are erased. -/
def Layout.RestErased (g : Geometry) (layout : Layout) (manifest : Manifest) (written : Nat)
    (flash : Flash g) : Prop :=
  flash.slice (layout.staging + written) (Pages.span g manifest.size.toNat - written)
    = List.replicate (Pages.span g manifest.size.toNat - written) Flash.erasedByte

/-- What flash holds when an update has come as far as `stage`. -/
def Stage.Backed {g : Geometry} (layout : Layout) (flash : Flash g) : Stage → Prop
  | .idle => True
  | .receiving manifest written _ => layout.Admits manifest ∧ written < manifest.size.toNat
      ∧ g.writeSize ∣ written ∧ layout.RestErased g manifest written flash
  | .complete manifest => layout.Admits manifest
  | .installed manifest => layout.Admits manifest ∧ layout.Installed manifest flash

theorem Stage.Backed.congr {g : Geometry} {layout : Layout} {before after : Flash g}
    {stage : Stage} (h : stage.Backed layout before) (hmemory : after.memory = before.memory) :
    stage.Backed layout after := by
  cases stage with
  | idle => trivial
  | receiving manifest written chunks =>
    obtain ⟨hadmits, hlt, hdvd, herased⟩ := h
    refine ⟨hadmits, hlt, hdvd, ?_⟩
    rw [Layout.RestErased, Flash.slice_of_memory_eq hmemory]
    exact herased
  | complete manifest => exact h
  | installed manifest => exact ⟨h.1, h.2.congr hmemory⟩

namespace Installer

variable {g : Geometry} {layout : Layout} {device : Device g}

/-- The manifest of the last announcement that was accepted, when the answer to `datagram` was
`result` and it was `previous` until then. -/
def announced? (previous : Option Manifest) (datagram : Datagram) (result : Except Fault Unit) :
    Option Manifest :=
  match datagram.kind, result with
  | .firmwareMetadata, .ok () => (Manifest.decode datagram.data).toOption
  | _, _ => previous

/-! ## What a request may do -/

/-- A request that jumps nowhere and does not make a sound part unsound. -/
def Quiet (layout : Layout) (flash : Flash g) (request : Request) (device' : Device g) : Prop :=
  (∀ target, request ≠ .jump target) ∧ (layout.Sound flash → layout.Sound device'.flash)

/-- A request that does not make a sound part unsound, and jumps only to an image that is
installed as its manifest says. -/
def Guarded (layout : Layout) (manifest? : Option Manifest) (flash : Flash g) (request : Request)
    (device' : Device g) : Prop :=
  (layout.Sound flash → layout.Sound device'.flash) ∧ ∀ target, request = .jump target →
    ∃ manifest, manifest? = some manifest ∧ layout.Admits manifest
      ∧ layout.Installed manifest device'.flash

theorem Quiet.guarded {flash : Flash g} {request : Request} {device' : Device g}
    (h : Quiet layout flash request device') (manifest? : Option Manifest) :
    Guarded layout manifest? flash request device' :=
  ⟨h.2, fun target heq => absurd heq (h.1 target)⟩

/-- Changes in the staging region concern neither the active region nor the record. -/
theorem sound_of_staging (hg : layout.Paged g) (hu : layout.Usable g) {before after : Flash g}
    {extent : Extent} (h : Flash.Changed [extent] before after)
    (hfirst : layout.staging ≤ extent.first)
    (hlast : extent.last ≤ layout.staging + layout.regionSize) (hsound : layout.Sound before) :
    layout.Sound after := by
  have hapart := hu.regions_apart
  refine hsound.of_changed h hg ?_ ?_
  · intro extent' hmem
    rw [List.mem_singleton.1 hmem]
    rw [Extent.Clear]
    omega
  · intro offset hrecord extent' hmem
    have hout := (hu.record_apart hrecord).1
    rw [List.mem_singleton.1 hmem]
    rw [Extent.Clear]
    omega

/-- An installation on its way is sound where it began on a sound part. -/
theorem Installing.sound {manifest : Manifest} {flash after : Flash g}
    (h : Installing layout manifest flash after) (hsound : layout.Sound flash) :
    layout.Sound after := by
  rcases h.progress with hkept | hnone | hinstalled
  · exact hsound.congr hkept.memory_eq
  · exact Layout.sound_of_none hnone
  · exact hinstalled.sound

/-! ## Announcements -/

/-- An announcement that is not acceptable changes nothing. -/
theorem acceptManifest_refused (g : Geometry) (layout : Layout) {data : Bytes}
    (h : ∀ manifest, Manifest.decode data = .ok manifest → ¬layout.Admits manifest) :
    ∃ fault, acceptManifest g layout data = pure (.error fault, .idle) := by
  rw [acceptManifest]
  cases hdecode : Manifest.decode data with
  | error fault => exact ⟨fault, rfl⟩
  | ok manifest =>
    exact ⟨.binaryOversized, if_pos (Layout.refused_size_iff.2 (h manifest hdecode))⟩

/-- What comes of an acceptable announcement. -/
inductive AnnouncementOutcome (layout : Layout) (manifest : Manifest) (flash : Flash g) :
    Except Fault Unit × Stage → Flash g → Prop
  | failed {fault : Fault} {after : Flash g} (failing : Failing flash fault)
      (kept : Flash.Kept flash after) :
      AnnouncementOutcome layout manifest flash (.error fault, .idle) after
  | taken {after : Flash g}
      (changed : Flash.Changed [layout.rest g manifest 0] flash after)
      (erased : layout.RestErased g manifest 0 after) :
      AnnouncementOutcome layout manifest flash (.ok (), .receiving manifest 0 0) after

/-- An acceptable announcement erases the pages for the image. -/
theorem acceptManifest_ensures (hg : layout.Paged g) (hu : layout.Usable g) {data : Bytes}
    {manifest : Manifest} (hdecode : Manifest.decode data = .ok manifest)
    (hadmits : layout.Admits manifest) (hglitch : device.flash.glitch = none) :
    (acceptManifest g layout data).Ensures device (Quiet layout device.flash)
      (fun outcome device' => device'.jumper = device.jumper
        ∧ AnnouncementOutcome layout manifest device.flash outcome device'.flash) := by
  have hspan := hu.span_le_region hadmits.2
  have hstaging := hu.staging_fits
  have hpage := hu.page_dvd_staging
  have herase := FlashTask.ensures_erase layout.staging
    (layout.staging + Pages.span g manifest.size.toNat) hglitch (Nat.le_add_right _ _) (by omega)
    (Nat.mod_eq_zero_of_dvd hpage)
    (Nat.mod_eq_zero_of_dvd (Nat.dvd_add hpage (Pages.dvd_span g _)))
  rw [Nat.add_sub_cancel_left] at herase
  have hchanged : ∀ {after}, Flash.Became device.flash (Flash.patch device.flash.memory
      layout.staging (List.replicate (Pages.span g manifest.size.toNat) Flash.erasedByte)) after →
      Flash.Changed [layout.rest g manifest 0] device.flash after := fun h =>
    h.changed ⟨_, List.mem_singleton_self _, Nat.le_refl _, by simp [Layout.rest]⟩
  rw [acceptManifest, hdecode]
  show Procedure.Ensures (if manifest.size = 0 ∨ manifest.size.toNat > layout.regionSize then _
    else _) _ _ _
  rw [if_neg fun hsize => Layout.refused_size_iff.1 hsize hadmits]
  refine herase.run ?_ ?_ ?_
  · rintro request flash' hjump h
    refine ⟨hjump, ?_⟩
    rcases h with h | h
    · exact fun hsound => hsound.congr h.memory_eq
    · exact sound_of_staging hg hu (hchanged h) (Nat.le_refl _) (by simp [Layout.rest]; omega)
  · intro _ flash' h
    refine Procedure.ensures_pure ⟨rfl, .taken (hchanged h) ?_⟩
    have hself := Flash.slice_patch_self h.memory_eq (by rw [List.length_replicate]; omega)
    rwa [List.length_replicate] at hself
  · intro fault flash' h
    exact Procedure.ensures_pure ⟨rfl, .failed h.1 h.2⟩

/-- The first thing done for an acceptable announcement is to erase. -/
theorem acceptManifest_erases (layout : Layout) {data : Bytes} {manifest : Manifest}
    (hdecode : Manifest.decode data = .ok manifest) (hadmits : layout.Admits manifest)
    (device : Device g) :
    ∃ step ∈ (acceptManifest g layout data).trace device,
      step.1 = .erase layout.staging (layout.staging + Pages.span g manifest.size.toNat) := by
  rw [acceptManifest, hdecode]
  show ∃ step ∈ (if manifest.size = 0 ∨ manifest.size.toNat > layout.regionSize then _
    else _ : Procedure _).trace device, _
  rw [if_neg fun hsize => Layout.refused_size_iff.1 hsize hadmits]
  exact ⟨_, List.mem_cons_self, rfl⟩

/-! ## Chunks -/

theorem refuseChunk_eq_none_iff {manifest : Manifest} {written chunks : Nat}
    {datagram : Datagram} (hwritten : written ≤ manifest.size.toNat) :
    refuseChunk g manifest written chunks datagram = none
      ↔ datagram.id.toNat = chunks ∧ 0 < datagram.data.length
        ∧ written + datagram.data.length ≤ manifest.size.toNat
        ∧ (written + datagram.data.length = manifest.size.toNat
          ∨ g.writeSize ∣ datagram.data.length) := by
  rw [Nat.dvd_iff_mod_eq_zero]
  unfold refuseChunk
  constructor
  · intro h
    simp only at h
    split at h
    · cases h
    split at h
    · cases h
    split at h
    · cases h
    split at h
    · cases h
    omega
  · rintro ⟨hid, hpos, hle, hwhole⟩
    simp only
    rw [if_neg (by omega), if_neg (by omega), if_neg (by omega), if_neg (by omega)]

/-- A chunk has been staged behind what was staged before it. -/
structure Staged (layout : Layout) (manifest : Manifest) (written : Nat) (data : Bytes)
    (flash after : Flash g) : Prop where
  changed : Flash.Changed [layout.rest g manifest written] flash after
  slice_eq : after.slice (layout.staging + written) (Pages.span g manifest.size.toNat - written)
    = data ++ List.replicate (Pages.span g manifest.size.toNat - written - data.length)
        Flash.erasedByte

/-- What comes of a chunk that is not refused. -/
inductive ChunkOutcome (layout : Layout) (manifest : Manifest) (written chunks : Nat)
    (data : Bytes) (flash : Flash g) : Except Fault Unit × Stage → Flash g → Prop
  /-- The chunk was not programmed to its end. -/
  | abandoned {fault : Fault} {after : Flash g} (failing : Failing flash fault)
      (changed : Flash.Changed [layout.rest g manifest written] flash after) :
      ChunkOutcome layout manifest written chunks data flash (.error fault, .idle) after
  | taken {after : Flash g} (more : written + data.length ≠ manifest.size.toNat)
      (staged : Staged layout manifest written data flash after) :
      ChunkOutcome layout manifest written chunks data flash
        (.ok (), .receiving manifest (written + data.length) (chunks + 1)) after
  | installed {staging after : Flash g} (last : written + data.length = manifest.size.toNat)
      (staged : Staged layout manifest written data flash staging)
      (changed : Flash.Changed (layout.installExtents g manifest.size.toNat) staging after)
      (installed : layout.Installed manifest after)
      (slice_eq : after.slice layout.active (Pages.span g manifest.size.toNat)
        = staging.slice layout.staging (Pages.span g manifest.size.toNat)) :
      ChunkOutcome layout manifest written chunks data flash (.ok (), .installed manifest) after
  | unfinished {staging after : Flash g} {fault : Fault}
      (last : written + data.length = manifest.size.toNat)
      (staged : Staged layout manifest written data flash staging)
      (installing : Installing layout manifest staging after)
      (reason : Failing staging fault ∨ fault = .flashVerificationFailed
        ∧ Crc32.padded (staging.slice layout.staging manifest.size.toNat) ≠ manifest.crc) :
      ChunkOutcome layout manifest written chunks data flash (.error fault, .complete manifest)
        after

theorem Staged.restErased {manifest : Manifest} {written : Nat} {data : Bytes}
    {flash after : Flash g} (h : Staged layout manifest written data flash after)
    (hroom : written + data.length ≤ Pages.span g manifest.size.toNat)
    (hfit : layout.staging + Pages.span g manifest.size.toNat ≤ g.capacity) :
    layout.RestErased g manifest (written + data.length) after := by
  obtain ⟨room, hspan⟩ := Nat.exists_eq_add_of_le hroom
  have hslice := h.slice_eq
  rw [show Pages.span g manifest.size.toNat - written = data.length + room from by omega,
    Flash.slice_append _ (by omega)] at hslice
  have htail := (List.append_inj hslice (Flash.length_slice (by omega))).2
  rw [Layout.RestErased,
    show Pages.span g manifest.size.toNat - (written + data.length) = room from by omega,
    ← Nat.add_assoc, htail, Nat.add_sub_cancel_left]

/-- A chunk is staged, and the last one is followed by the installation. -/
theorem acceptChunk_ensures (hg : layout.Paged g) (hu : layout.Usable g) {manifest : Manifest}
    {written chunks : Nat} {datagram : Datagram}
    (hbacked : (Stage.receiving manifest written chunks).Backed layout device.flash)
    (hrefuse : refuseChunk g manifest written chunks datagram = none)
    (hglitch : device.flash.glitch = none) :
    (acceptChunk g layout manifest written chunks datagram).Ensures device
      (Quiet layout device.flash)
      (fun outcome device' => device'.jumper = device.jumper
        ∧ ChunkOutcome layout manifest written chunks datagram.data device.flash outcome
          device'.flash) := by
  obtain ⟨hadmits, hlt, hdvd, herased⟩ := hbacked
  obtain ⟨-, -, hroom, -⟩ := (refuseChunk_eq_none_iff (Nat.le_of_lt hlt)).1 hrefuse
  have hspan := hu.span_le_region hadmits.2
  have hle := Pages.le_span hu.page_pos manifest.size.toNat
  have hstaging := hu.staging_fits
  have hwrite := ensures_writeChunk datagram.data hu hglitch
    (Nat.dvd_add (Nat.dvd_trans hg.write_dvd_page hu.page_dvd_staging) hdvd)
    (Nat.dvd_sub (Nat.dvd_trans hg.write_dvd_page (Pages.dvd_span g manifest.size.toNat)) hdvd)
    (by omega) (by omega) herased
  -- Staging stays behind what has been staged, so that no record is affected.
  have hquiet : ∀ {after : Flash g},
      Flash.Changed [layout.rest g manifest written] device.flash after →
      layout.Sound device.flash → layout.Sound after := fun h =>
    sound_of_staging hg hu h (Nat.le_add_right _ _) (by simp only [Layout.rest]; omega)
  rw [acceptChunk, hrefuse]
  refine hwrite.run ?_ ?_ ?_
  · intro request flash' hjump h
    exact ⟨hjump, hquiet h⟩
  · rintro _ staging ⟨hchanged, hslice⟩
    have hstaged : Staged layout manifest written datagram.data device.flash staging :=
      ⟨hchanged, hslice⟩
    show Procedure.Ensures (if written + datagram.data.length ≠ manifest.size.toNat then _ else _)
      _ _ _
    by_cases hmore : written + datagram.data.length ≠ manifest.size.toNat
    · rw [if_pos hmore]
      exact Procedure.ensures_pure ⟨rfl, .taken hmore hstaged⟩
    rw [if_neg hmore]
    have hlast := Classical.not_not.1 hmore
    -- The last chunk: the installation begins from the part as staging has left it.
    refine (ensures_finalize hg hu hadmits.2 hchanged.glitch_eq).run ?_ ?_ ?_
    · intro request flash' hjump h
      exact ⟨hjump, fun hsound => h.sound (hquiet hchanged hsound)⟩
    · rintro _ after ⟨hinstall, hinstalled, hslice', -⟩
      exact Procedure.ensures_pure ⟨rfl, .installed hlast hstaged hinstall hinstalled hslice'⟩
    · rintro fault after ⟨hinstalling, hreason⟩
      exact Procedure.ensures_pure ⟨rfl, .unfinished hlast hstaged hinstalling hreason⟩
  · rintro fault after ⟨hfailing, hchanged⟩
    exact Procedure.ensures_pure ⟨rfl, .abandoned hfailing hchanged⟩

/-- What comes of a chunk backs the state that it leads to. -/
theorem ChunkOutcome.backed (hu : layout.Usable g) {manifest : Manifest}
    {written chunks : Nat} {data : Bytes} {flash after : Flash g}
    {outcome : Except Fault Unit × Stage}
    (h : ChunkOutcome layout manifest written chunks data flash outcome after)
    (hadmits : layout.Admits manifest) (hdvd : g.writeSize ∣ written)
    (hroom : written + data.length ≤ manifest.size.toNat)
    (hwhole : written + data.length = manifest.size.toNat ∨ g.writeSize ∣ data.length) :
    outcome.2.Backed layout after := by
  have hspan := hu.span_le_region hadmits.2
  have hle := Pages.le_span hu.page_pos manifest.size.toNat
  have hstaging := hu.staging_fits
  cases h with
  | abandoned failing changed => trivial
  | taken more staged =>
    exact ⟨hadmits, by omega, Nat.dvd_add hdvd (hwhole.resolve_left more),
      staged.restErased (by omega) (by omega)⟩
  | installed last staged changed installed slice_eq => exact ⟨hadmits, installed⟩
  | unfinished last staged installing reason => exact hadmits

theorem ChunkOutcome.glitch_eq {manifest : Manifest} {written chunks : Nat} {data : Bytes}
    {flash after : Flash g} {outcome : Except Fault Unit × Stage}
    (h : ChunkOutcome layout manifest written chunks data flash outcome after) :
    after.glitch = none := by
  cases h with
  | abandoned failing changed => exact changed.glitch_eq
  | taken more staged => exact staged.changed.glitch_eq
  | installed last staged changed installed slice_eq => exact changed.glitch_eq
  | unfinished last staged installing reason => exact installing.changed.glitch_eq

/-- The image whose chunks are taken stays the one announced. -/
theorem ChunkOutcome.manifest?_eq {manifest : Manifest} {written chunks : Nat} {data : Bytes}
    {flash after : Flash g} {outcome : Except Fault Unit × Stage}
    (h : ChunkOutcome layout manifest written chunks data flash outcome after) :
    (ready layout outcome.2).manifest? = some manifest
      ∨ (ready layout outcome.2).manifest? = none := by
  cases h with
  | abandoned failing changed => exact .inr rfl
  | taken more staged => exact .inl rfl
  | installed last staged changed installed slice_eq => exact .inl rfl
  | unfinished last staged installing reason => exact .inl rfl

/-! ## Jump requests -/

/-- A jump request leads out of the bootloader only once the image is installed. -/
theorem acceptJump_ensures (hg : layout.Paged g) (hu : layout.Usable g) {stage : Stage}
    {data : Bytes} (hbacked : stage.Backed layout device.flash)
    (hglitch : device.flash.glitch = none) :
    (acceptJump g layout stage data).Ensures device
      (Guarded layout (ready layout stage).manifest? device.flash)
      (fun outcome device' => (∃ fault, outcome.1 = .error fault)
        ∧ (ready layout outcome.2).manifest? = (ready layout stage).manifest?
        ∧ outcome.2.Backed layout device'.flash ∧ device'.flash.glitch = none) := by
  -- Leaving, from a part on which the image is installed.
  have hleave : ∀ {manifest : Manifest} {device' : Device g}, layout.Admits manifest →
      layout.Installed manifest device'.flash → device'.flash.glitch = none →
      (leave layout manifest >>= fun fault =>
        (pure (.error fault, .installed manifest) : Procedure (Except Fault Unit × Stage))).Ensures
        device' (Guarded layout (some manifest) device.flash)
        (fun outcome device'' => (∃ fault, outcome.1 = .error fault)
          ∧ (ready layout outcome.2).manifest? = some manifest
          ∧ outcome.2.Backed layout device''.flash ∧ device''.flash.glitch = none) := by
    intro manifest device' hadmits hinstalled hglitch'
    refine Procedure.Ensures.bind ((ensures_leave hu hadmits.2 hglitch').imp ?_ fun _ _ h => h) ?_
    · intro request device'' hkept
      exact ⟨fun _ => (hinstalled.congr hkept.memory_eq).sound,
        fun _ _ => ⟨manifest, rfl, hadmits, hinstalled.congr hkept.memory_eq⟩⟩
    · intro fault device'' h
      exact Procedure.ensures_pure
        ⟨⟨fault, rfl⟩, rfl, ⟨hadmits, hinstalled.congr h.kept.memory_eq⟩, h.kept.glitch_eq⟩
  simp only [acceptJump]
  cases JumpRequest.decode data with
  | error fault => exact Procedure.ensures_pure ⟨⟨fault, rfl⟩, rfl, hbacked, hglitch⟩
  | ok request =>
    cases stage with
    | idle => exact Procedure.ensures_pure ⟨⟨_, rfl⟩, rfl, hbacked, hglitch⟩
    | receiving manifest written chunks =>
      exact Procedure.ensures_pure ⟨⟨_, rfl⟩, rfl, hbacked, hglitch⟩
    | complete manifest =>
      refine (ensures_finalize hg hu hbacked.2 hglitch).run ?_ ?_ ?_
      · intro request flash' hjump h
        have hquiet : Quiet layout device.flash request { device with flash := flash' } :=
          ⟨hjump, fun hsound => h.sound hsound⟩
        exact hquiet.guarded _
      · rintro _ after ⟨hchanged, hinstalled, -⟩
        show Procedure.Ensures (leave layout manifest >>= fun fault => _) _ _ _
        exact hleave hbacked hinstalled hchanged.glitch_eq
      · rintro fault after ⟨hinstalling, -⟩
        exact Procedure.ensures_pure
          ⟨⟨fault, rfl⟩, rfl, hbacked, hinstalling.changed.glitch_eq⟩
    | installed manifest =>
      show Procedure.Ensures (leave layout manifest >>= fun fault => _) _ _ _
      exact hleave hbacked.1 hbacked.2 hglitch

/-! ## Any datagram -/

theorem announced?_error (previous : Option Manifest) (datagram : Datagram) (fault : Fault) :
    announced? previous datagram (.error fault) = previous := by
  simp only [announced?]
  cases datagram.kind <;> rfl

theorem announced?_chunk {datagram : Datagram} (h : datagram.kind = .firmwareChunk)
    (previous : Option Manifest) (result : Except Fault Unit) :
    announced? previous datagram result = previous := by
  simp only [announced?]
  rw [h]

/-- What holds of a node between two datagrams, over the answer to `datagram` in `stage`: flash
backs the new state, and if the image under way was the last one announced, it still is. -/
def Upheld (layout : Layout) (stage : Stage) (datagram : Datagram)
    (outcome : Except Fault Unit × Stage) (device' : Device g) : Prop :=
  outcome.2.Backed layout device'.flash ∧ device'.flash.glitch = none
    ∧ ∀ previous, (∀ manifest, (ready layout stage).manifest? = some manifest →
        previous = some manifest) →
      ∀ manifest, (ready layout outcome.2).manifest? = some manifest →
        announced? previous datagram outcome.1 = some manifest

theorem upheld_error {stage stage' : Stage} {datagram : Datagram} {fault : Fault}
    (hbacked : stage'.Backed layout device.flash) (hglitch : device.flash.glitch = none)
    (hmanifest : (ready layout stage').manifest? = (ready layout stage).manifest?
      ∨ (ready layout stage').manifest? = none) :
    Upheld layout stage datagram (.error fault, stage') device := by
  refine ⟨hbacked, hglitch, ?_⟩
  intro previous hprevious manifest hnext
  rw [announced?_error]
  rcases hmanifest with heq | hnone
  · exact hprevious manifest (heq ▸ hnext)
  · rw [hnone] at hnext
    cases hnext

/-- The answer to a datagram and the state afterwards, once there is a layout. -/
def respond (g : Geometry) (layout : Layout) (stage : Stage) (datagram : Datagram) :
    Procedure (Except Fault Unit × Stage) :=
  match datagram.kind, stage with
  | .jumpToApp, stage => acceptJump g layout stage datagram.data
  | .firmwareMetadata, .idle => acceptManifest g layout datagram.data
  | .firmwareChunk, .receiving manifest written chunks =>
    acceptChunk g layout manifest written chunks datagram
  | _, stage => pure (.error .bootloaderInvalidState, stage)

theorem process_ready (stage : Stage) (datagram : Datagram) :
    process g (.ready layout stage) datagram
      = respond g layout stage datagram >>= fun outcome =>
        pure (outcome.1, .ready layout outcome.2) := by
  simp only [respond, process]
  cases datagram.kind <;> cases stage <;> rfl

theorem respond_ensures (hg : layout.Paged g) (hu : layout.Usable g) {stage : Stage}
    {datagram : Datagram} (hbacked : stage.Backed layout device.flash)
    (hglitch : device.flash.glitch = none) :
    (respond g layout stage datagram).Ensures device
      (Guarded layout (ready layout stage).manifest? device.flash)
      (Upheld layout stage datagram) := by
  simp only [respond]
  split
  next stage hkind =>
    -- A jump request, which is always answered with a fault.
    refine (acceptJump_ensures hg hu hbacked hglitch).imp (fun _ _ h => h) ?_
    rintro ⟨_, stage'⟩ device' ⟨⟨fault, rfl⟩, hmanifest, hbacked', hglitch'⟩
    exact upheld_error hbacked' hglitch' (.inl hmanifest)
  next hkind =>
    -- An announcement while nothing is under way: there is no image yet that it could replace.
    by_cases hadmits : ∃ manifest, Manifest.decode datagram.data = .ok manifest
        ∧ layout.Admits manifest
    · obtain ⟨manifest, hdecode, hadmits⟩ := hadmits
      refine (acceptManifest_ensures hg hu hdecode hadmits hglitch).imp
        (fun _ _ h => h.guarded _) ?_
      rintro outcome device' ⟨-, h⟩
      cases h with
      | failed failing kept => exact upheld_error trivial kept.glitch_eq (.inr rfl)
      | taken changed erased =>
        refine ⟨⟨hadmits, hadmits.1, Nat.dvd_zero _, erased⟩, changed.glitch_eq, ?_⟩
        intro previous _ manifest' hnext
        simp only [announced?]
        rw [hkind, hdecode]
        exact hnext
    · obtain ⟨fault, heq⟩ := acceptManifest_refused g layout
        fun manifest hdecode h => hadmits ⟨manifest, hdecode, h⟩
      rw [heq]
      exact Procedure.ensures_pure (upheld_error trivial hglitch (.inr rfl))
  next manifest written chunks hkind =>
    -- A chunk of the image under way.
    obtain ⟨hadmits, hlt, hdvd, herased⟩ := hbacked
    cases hrefuse : refuseChunk g manifest written chunks datagram with
    | some fault =>
      rw [acceptChunk, hrefuse]
      exact Procedure.ensures_pure
        (upheld_error ⟨hadmits, hlt, hdvd, herased⟩ hglitch (.inl rfl))
    | none =>
      obtain ⟨-, -, hroom, hwhole⟩ := (refuseChunk_eq_none_iff (Nat.le_of_lt hlt)).1 hrefuse
      refine (acceptChunk_ensures hg hu ⟨hadmits, hlt, hdvd, herased⟩ hrefuse hglitch).imp
        (fun _ _ h => h.guarded _) ?_
      rintro outcome device' ⟨-, h⟩
      refine ⟨h.backed hu hadmits hdvd hroom hwhole, h.glitch_eq, ?_⟩
      intro previous hprevious manifest' hnext
      rw [announced?_chunk hkind]
      rcases h.manifest?_eq with heq | hnone
      · rw [heq] at hnext
        exact hprevious manifest' hnext
      · rw [hnone] at hnext
        cases hnext
  next => exact Procedure.ensures_pure (upheld_error hbacked hglitch (.inl rfl))

/-- Handling a datagram keeps the state backed, and the image under way the one that was last
announced. -/
theorem process_ensures (hg : layout.Paged g) (hu : layout.Usable g) {stage : Stage}
    {datagram : Datagram} (hbacked : stage.Backed layout device.flash)
    (hglitch : device.flash.glitch = none) :
    (process g (.ready layout stage) datagram).Ensures device
      (Guarded layout (ready layout stage).manifest? device.flash)
      (fun outcome device' => ∃ stage', outcome.2 = .ready layout stage'
        ∧ Upheld layout stage datagram (outcome.1, stage') device') := by
  rw [process_ready]
  refine (respond_ensures hg hu hbacked hglitch).bind ?_
  intro outcome device' h
  exact Procedure.ensures_pure ⟨outcome.2, rfl, h⟩

/-! ## Refusals -/

/-- The faults of a datagram that comes at the wrong time or asks for the wrong thing. -/
def IsRefusal (fault : Fault) : Prop :=
  fault = .bootloaderInvalidState ∨ fault = .sequenceOutOfOrder ∨ fault = .invalidDatagram
    ∨ fault = .binaryOversized

theorem not_isRefusal_of_failing {flash : Flash g} {fault : Fault} (h : Failing flash fault) :
    ¬IsRefusal fault := by
  rw [IsRefusal]
  rcases h.2 with rfl | rfl | rfl
  all_goals nofun

theorem not_isRefusal_flashVerificationFailed : ¬IsRefusal .flashVerificationFailed := by
  rw [IsRefusal]
  nofun

theorem not_isRefusal_of_reason {flash : Flash g} {fault : Fault} {mismatch : Prop}
    (h : Failing flash fault ∨ fault = .flashVerificationFailed ∧ mismatch) :
    ¬IsRefusal fault := by
  rcases h with hfailing | ⟨rfl, -⟩
  · exact not_isRefusal_of_failing hfailing
  · exact not_isRefusal_flashVerificationFailed

theorem LeaveOutcome.not_isRefusal {manifest : Manifest} {device' : Device g} {fault : Fault}
    (h : LeaveOutcome layout manifest device fault device') : ¬IsRefusal fault := by
  cases h with
  | jumped kept written jumper_eq => unfold IsRefusal; nofun
  | blank kept blank jumper_eq => exact not_isRefusal_flashVerificationFailed
  | failed kept failing => exact not_isRefusal_of_failing failing

/-- If `outcome` is a refusal, everything is as it was. -/
def Unmoved (stage : Stage) (flash : Flash g) (outcome : Except Fault Unit × Stage)
    (device' : Device g) : Prop :=
  ∀ fault, outcome.1 = .error fault → IsRefusal fault →
    outcome.2 = stage ∧ Flash.Kept flash device'.flash

theorem unmoved_pure {stage : Stage} {result : Except Fault Unit}
    (hglitch : device.flash.glitch = none) :
    (pure (result, stage) : Procedure _).Ensures device (fun _ _ => True)
      (Unmoved stage device.flash) :=
  Procedure.ensures_pure fun _ _ _ => ⟨rfl, Flash.Kept.refl hglitch⟩

theorem unmoved_of_not {stage : Stage} {flash : Flash g} {outcome : Except Fault Unit × Stage}
    {device' : Device g} {fault : Fault} (heq : outcome.1 = .error fault)
    (hnot : ¬IsRefusal fault) : Unmoved stage flash outcome device' := by
  intro fault' heq' hrefusal
  rw [heq] at heq'
  cases heq'
  exact absurd hrefusal hnot

theorem acceptJump_unmoved (hg : layout.Paged g) (hu : layout.Usable g) {stage : Stage}
    {data : Bytes} (hbacked : stage.Backed layout device.flash)
    (hglitch : device.flash.glitch = none) :
    (acceptJump g layout stage data).Ensures device (fun _ _ => True)
      (Unmoved stage device.flash) := by
  -- Once the image is installed, no answer is a refusal.
  have hleave : ∀ {manifest : Manifest} {device' : Device g}, layout.Admits manifest →
      device'.flash.glitch = none →
      (leave layout manifest >>= fun fault =>
        (pure (.error fault, .installed manifest) : Procedure (Except Fault Unit × Stage))).Ensures
        device' (fun _ _ => True) (Unmoved stage device.flash) := by
    intro manifest device' hadmits hglitch'
    refine Procedure.Ensures.bind ((ensures_leave hu hadmits.2 hglitch').imp (fun _ _ _ => trivial)
      fun _ _ h => h) ?_
    intro fault device'' h
    exact Procedure.ensures_pure (unmoved_of_not rfl h.not_isRefusal)
  simp only [acceptJump]
  cases JumpRequest.decode data with
  | error fault => exact unmoved_pure hglitch
  | ok request =>
    cases stage with
    | idle => exact unmoved_pure hglitch
    | receiving manifest written chunks => exact unmoved_pure hglitch
    | complete manifest =>
      refine (ensures_finalize hg hu hbacked.2 hglitch).run (fun _ _ _ _ => trivial) ?_ ?_
      · rintro _ after ⟨hchanged, -⟩
        exact hleave hbacked hchanged.glitch_eq
      · rintro fault after ⟨-, hreason⟩
        exact Procedure.ensures_pure (unmoved_of_not rfl (not_isRefusal_of_reason hreason))
    | installed manifest => exact hleave hbacked.1 hglitch

theorem ChunkOutcome.unmoved {manifest : Manifest} {written chunks : Nat} {data : Bytes}
    {stage : Stage} {flash : Flash g} {outcome : Except Fault Unit × Stage} {device' : Device g}
    (h : ChunkOutcome layout manifest written chunks data flash outcome device'.flash) :
    Unmoved stage flash outcome device' := by
  obtain ⟨result, stage'⟩ := outcome
  cases h with
  | abandoned failing changed => exact unmoved_of_not rfl (not_isRefusal_of_failing failing)
  | taken more staged => nofun
  | installed last staged changed installed slice_eq => nofun
  | unfinished last staged installing reason =>
    exact unmoved_of_not rfl (not_isRefusal_of_reason reason)

/-- A datagram that is refused changes neither the state nor what flash holds. -/
theorem respond_unmoved (hg : layout.Paged g) (hu : layout.Usable g) {stage : Stage}
    {datagram : Datagram} (hbacked : stage.Backed layout device.flash)
    (hglitch : device.flash.glitch = none) :
    (respond g layout stage datagram).Ensures device (fun _ _ => True)
      (Unmoved stage device.flash) := by
  simp only [respond]
  split
  next => exact acceptJump_unmoved hg hu hbacked hglitch
  next hkind =>
    by_cases hadmits : ∃ manifest, Manifest.decode datagram.data = .ok manifest
        ∧ layout.Admits manifest
    · obtain ⟨manifest, hdecode, hadmits⟩ := hadmits
      refine (acceptManifest_ensures hg hu hdecode hadmits hglitch).imp (fun _ _ _ => trivial) ?_
      rintro ⟨result, stage'⟩ device' ⟨-, h⟩
      cases h with
      | failed failing kept => exact unmoved_of_not rfl (not_isRefusal_of_failing failing)
      | taken changed erased => nofun
    · obtain ⟨fault, heq⟩ := acceptManifest_refused g layout
        fun manifest hdecode h => hadmits ⟨manifest, hdecode, h⟩
      rw [heq]
      exact unmoved_pure hglitch
  next manifest written chunks hkind =>
    cases hrefuse : refuseChunk g manifest written chunks datagram with
    | some fault =>
      rw [acceptChunk, hrefuse]
      exact unmoved_pure hglitch
    | none =>
      exact (acceptChunk_ensures hg hu hbacked hrefuse hglitch).imp (fun _ _ _ => trivial)
        fun _ _ h => h.2.unmoved
  next => exact unmoved_pure hglitch

end Installer

end Reflash
