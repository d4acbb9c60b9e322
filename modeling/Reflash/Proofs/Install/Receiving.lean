/-
  Reflash.Proofs.Install.Receiving

  What a node holds of an image that it is sent. Beside a trial runs the list of the
  chunks that were accepted since the last accepted announcement. All through the
  trial the staging region begins with just these chunks, in order, and is erased
  behind them as far as it was cleared; once the image is complete they are the whole
  of it. Nothing is ever asked of flash beyond the end of the part.
-/
import Reflash.Proofs.Install.Footprint

namespace Reflash

open FlashTask (Failing)

/-! ## What is staged -/

namespace Layout

variable {g : Geometry} {layout : Layout} {manifest : Manifest} {written count : Nat}
  {chunks : List Bytes}

/-- Of the image of `manifest`, `chunks` have been staged, and more are to come. -/
structure Receives (g : Geometry) (layout : Layout) (manifest : Manifest) (written count : Nat)
    (chunks : List Bytes) (flash : Flash g) : Prop where
  admits : layout.Admits manifest
  written_lt : written < manifest.size.toNat
  whole_writes : g.writeSize ∣ written
  written_eq : written = chunks.flatten.length
  count_eq : count = chunks.length
  chunk_pos : ∀ chunk ∈ chunks, 0 < chunk.length
  staged : flash.slice layout.staging written = chunks.flatten
  erased : layout.RestErased g manifest written flash

/-- The image of `manifest` is staged as a whole, and consists of `chunks`. -/
structure Keeps (layout : Layout) (manifest : Manifest) (chunks : List Bytes) (flash : Flash g) :
    Prop where
  admits : layout.Admits manifest
  size_eq : manifest.size.toNat = chunks.flatten.length
  staged : flash.slice layout.staging manifest.size.toNat = chunks.flatten

end Layout

/-- What a node knows of the image under way is true of its flash, `chunks` having been accepted
of the image. -/
def Stage.Upright {g : Geometry} (layout : Layout) (chunks : List Bytes) (flash : Flash g) :
    Stage → Prop
  | .idle => True
  | .receiving manifest written count => layout.Receives g manifest written count chunks flash
  | .complete manifest => layout.Keeps manifest chunks flash
  | .installed manifest => layout.Keeps manifest chunks flash

namespace Layout

variable {g : Geometry} {layout : Layout} {manifest : Manifest} {written count : Nat}
  {chunks : List Bytes} {flash after : Flash g}

theorem length_le_flatten (h : ∀ chunk ∈ chunks, 0 < chunk.length) :
    chunks.length ≤ chunks.flatten.length := by
  induction chunks with
  | nil => exact Nat.le_refl _
  | cons chunk chunks ih =>
    obtain ⟨hchunk, hchunks⟩ := List.forall_mem_cons.1 h
    have hrest := ih hchunks
    rw [List.flatten_cons, List.length_append, List.length_cons]
    omega

/-- Each chunk has at least one byte, so there are fewer of them than bytes in the image. -/
theorem Receives.count_lt (h : layout.Receives g manifest written count chunks flash) :
    count < manifest.size.toNat := by
  have hle := length_le_flatten h.chunk_pos
  have hlt := h.written_lt
  rw [h.written_eq] at hlt
  rw [h.count_eq]
  omega

theorem Receives.backed (h : layout.Receives g manifest written count chunks flash) :
    (Stage.receiving manifest written count).Backed layout flash :=
  ⟨h.admits, h.written_lt, h.whole_writes, h.erased⟩

theorem receives_nothing (hadmits : layout.Admits manifest)
    (herased : layout.RestErased g manifest 0 flash) :
    layout.Receives g manifest 0 0 [] flash where
  admits := hadmits
  written_lt := hadmits.1
  whole_writes := Nat.dvd_zero _
  written_eq := rfl
  count_eq := rfl
  chunk_pos := nofun
  staged := Flash.slice_zero _ _
  erased := herased

theorem Keeps.of_slice_eq (h : layout.Keeps manifest chunks flash)
    (hslice : after.slice layout.staging manifest.size.toNat
      = flash.slice layout.staging manifest.size.toNat) : layout.Keeps manifest chunks after :=
  ⟨h.admits, h.size_eq, hslice.trans h.staged⟩

/-- What has been staged with a chunk is what was staged before it, and the chunk. -/
theorem slice_with_chunk (hu : layout.Usable g)
    (h : layout.Receives g manifest written count chunks flash) {data : Bytes}
    (hstaged : Installer.Staged layout manifest written data flash after)
    (hroom : written + data.length ≤ manifest.size.toNat) :
    after.slice layout.staging (written + data.length) = (chunks ++ [data]).flatten := by
  have hle := Pages.le_span hu.page_pos manifest.size.toNat
  have hspan := hu.span_le_region h.admits.2
  have hstaging := hu.staging_fits
  have hfront : after.slice layout.staging written = flash.slice layout.staging written := by
    refine hstaged.changed.slice_eq ?_
    intro extent hmem
    rw [List.mem_singleton.1 hmem]
    exact .inl (Nat.le_refl _)
  have hbehind : after.slice (layout.staging + written) data.length = data := by
    rw [← Flash.slice_take after _ (show data.length ≤ Pages.span g manifest.size.toNat - written
      from by omega), hstaged.slice_eq, List.take_left]
  rw [Flash.slice_append _ (by omega), hfront, h.staged, hbehind, List.flatten_append,
    List.flatten_singleton]

/-- A chunk that is not the last is received. -/
theorem Receives.more (hu : layout.Usable g)
    (h : layout.Receives g manifest written count chunks flash) {data : Bytes}
    (hstaged : Installer.Staged layout manifest written data flash after)
    (hpos : 0 < data.length) (hroom : written + data.length ≤ manifest.size.toNat)
    (hwhole : g.writeSize ∣ data.length) (hmore : written + data.length ≠ manifest.size.toNat) :
    layout.Receives g manifest (written + data.length) (count + 1) (chunks ++ [data]) after where
  admits := h.admits
  written_lt := by omega
  whole_writes := Nat.dvd_add h.whole_writes hwhole
  written_eq := by
    rw [List.flatten_append, List.flatten_singleton, List.length_append, ← h.written_eq]
  count_eq := by rw [h.count_eq, List.length_append, List.length_singleton]
  chunk_pos := List.forall_mem_append.2 ⟨h.chunk_pos, List.forall_mem_singleton.2 hpos⟩
  staged := slice_with_chunk hu h hstaged hroom
  erased := by
    have hle := Pages.le_span hu.page_pos manifest.size.toNat
    have hspan := hu.span_le_region h.admits.2
    have hstaging := hu.staging_fits
    exact hstaged.restErased (by omega) (by omega)

/-- With the last chunk the image is staged as a whole. -/
theorem Receives.last (hu : layout.Usable g)
    (h : layout.Receives g manifest written count chunks flash) {data : Bytes}
    (hstaged : Installer.Staged layout manifest written data flash after)
    (hlast : written + data.length = manifest.size.toNat) :
    layout.Keeps manifest (chunks ++ [data]) after where
  admits := h.admits
  size_eq := by
    rw [List.flatten_append, List.flatten_singleton, List.length_append, ← h.written_eq, hlast]
  staged := by
    rw [← hlast]
    exact slice_with_chunk hu h hstaged (Nat.le_of_eq hlast)

end Layout

/-- What happens outside the staging region leaves what a node knows of the image true. -/
theorem Stage.Upright.of_sameOutside {g : Geometry} {layout : Layout} {chunks : List Bytes}
    {before after : Flash g} {stage : Stage} {extents : List Extent} (hu : layout.Usable g)
    (h : stage.Upright layout chunks before) (hsame : Flash.SameOutside extents before after)
    (hapart : ∀ extent ∈ extents, layout.staging + layout.regionSize ≤ extent.first
      ∨ extent.last ≤ layout.staging) : stage.Upright layout chunks after := by
  have hslice : ∀ {offset length}, layout.staging ≤ offset →
      offset + length ≤ layout.staging + layout.regionSize →
      after.slice offset length = before.slice offset length := by
    intro offset length hlow hhigh
    refine hsame.slice_eq ?_
    intro extent hmem
    have hout := hapart extent hmem
    rw [Extent.Clear]
    omega
  cases stage with
  | idle => trivial
  | receiving manifest written count =>
    have hspan := hu.span_le_region h.admits.2
    have hle := Pages.le_span hu.page_pos manifest.size.toNat
    have hlt := h.written_lt
    refine { h with staged := ?_, erased := ?_ }
    · rw [hslice (Nat.le_refl _) (by omega)]
      exact h.staged
    · rw [Layout.RestErased, hslice (by omega) (by omega)]
      exact h.erased
  | complete manifest =>
    exact h.of_slice_eq (hslice (Nat.le_refl _) (Nat.add_le_add_left h.admits.2 _))
  | installed manifest =>
    exact h.of_slice_eq (hslice (Nat.le_refl _) (Nat.add_le_add_left h.admits.2 _))

namespace Stage

variable {g : Geometry} {layout : Layout} {chunks : List Bytes} {flash : Flash g}

theorem Upright.congr {before after : Flash g} {stage : Stage} (hu : layout.Usable g)
    (h : stage.Upright layout chunks before) (hmemory : after.memory = before.memory) :
    stage.Upright layout chunks after :=
  h.of_sameOutside hu (Flash.sameOutside_of_memory_eq hmemory []) nofun

theorem Upright.inRange {stage : Stage} (h : stage.Upright layout chunks flash) :
    stage.InRange g layout := by
  cases stage with
  | idle => trivial
  | receiving manifest written count => exact ⟨h.admits, h.written_lt, h.whole_writes⟩
  | complete manifest => exact h.admits
  | installed manifest => exact h.admits

end Stage

namespace Installer

variable {g : Geometry} {layout : Layout} {device : Device g} {chunks : List Bytes}

/-! ## Accepted chunks -/

/-- The chunks accepted of the image under way, when they were `chunks` and then `datagram` was
answered with `result` and took the node from `before` to `after`. -/
def gathered (chunks : List Bytes) (datagram : Datagram) (result : Except Fault Unit)
    (before after : Stage) : List Bytes :=
  match datagram.kind, result, before, after with
  | .firmwareMetadata, .ok (), _, _ => []
  | .firmwareChunk, .ok (), _, _ => chunks ++ [datagram.data]
  -- The last chunk is accepted even if the installation behind it fails.
  | .firmwareChunk, .error _, .receiving .., .complete _ => chunks ++ [datagram.data]
  | _, _, _, _ => chunks

theorem gathered_same (chunks : List Bytes) (datagram : Datagram) (fault : Fault)
    (stage : Stage) : gathered chunks datagram (.error fault) stage stage = chunks := by
  simp only [gathered]
  cases datagram.kind <;> cases stage <;> rfl

theorem gathered_jump {datagram : Datagram} (hkind : datagram.kind = .jumpToApp)
    (result : Except Fault Unit) (before after : Stage) :
    gathered chunks datagram result before after = chunks := by
  simp only [gathered, hkind]

theorem gathered_announcement {datagram : Datagram} (hkind : datagram.kind = .firmwareMetadata)
    (before after : Stage) : gathered chunks datagram (.ok ()) before after = [] := by
  simp only [gathered, hkind]

theorem gathered_chunk {datagram : Datagram} (hkind : datagram.kind = .firmwareChunk)
    (before after : Stage) :
    gathered chunks datagram (.ok ()) before after = chunks ++ [datagram.data] := by
  simp only [gathered, hkind]

theorem gathered_last {datagram : Datagram} (hkind : datagram.kind = .firmwareChunk)
    (fault : Fault) (manifest : Manifest) (written count : Nat) :
    gathered chunks datagram (.error fault) (.receiving manifest written count)
      (.complete manifest) = chunks ++ [datagram.data] := by
  simp only [gathered, hkind]

theorem process_run (stage : Stage) (datagram : Datagram) (device : Device g) :
    (process g (.ready layout stage) datagram).run device
      = ((((respond g layout stage datagram).run device).1.1,
          .ready layout ((respond g layout stage datagram).run device).1.2),
        ((respond g layout stage datagram).run device).2) := by
  rw [process_ready, Procedure.run_bind]
  rfl

/-- The first thing done with a chunk that is not empty is to program it where it belongs. -/
theorem writeChunk_starts (offset : Nat) {data : Bytes} (hpos : 0 < data.length)
    (device : Device g) :
    ∃ bytes device', ((writeChunk g offset data).run.trace device).head?
      = some (.write offset bytes, device') := by
  rw [writeChunk_eq, writeFront, writeTail]
  by_cases hwhole : 0 < wholeWrites g data
  · rw [if_pos hwhole]
    exact ⟨_, _, rfl⟩
  · have hzero : wholeWrites g data = 0 := by omega
    rw [if_neg hwhole, pure_bind, hzero, if_pos hpos]
    exact ⟨_, _, rfl⟩

/-! ## One datagram -/

theorem respond_chunk {datagram : Datagram} (hkind : datagram.kind = .firmwareChunk)
    (manifest : Manifest) (written count : Nat) :
    respond g layout (.receiving manifest written count) datagram
      = acceptChunk g layout manifest written count datagram := by
  simp only [respond, hkind]

/-- What comes of a chunk that is not refused. -/
theorem upright_chunk (hu : layout.Usable g) {manifest : Manifest} {written count : Nat}
    {datagram : Datagram} (hkind : datagram.kind = .firmwareChunk)
    (h : layout.Receives g manifest written count chunks device.flash)
    (hrefuse : refuseChunk g manifest written count datagram = none)
    {outcome : Except Fault Unit × Stage} {after : Flash g}
    (houtcome : ChunkOutcome layout manifest written count datagram.data device.flash outcome
      after) :
    outcome.2.Upright layout
      (gathered chunks datagram outcome.1 (.receiving manifest written count) outcome.2)
      after := by
  obtain ⟨-, hpos, hroom, hwhole⟩ :=
    (refuseChunk_eq_none_iff (Nat.le_of_lt h.written_lt)).1 hrefuse
  cases houtcome with
  | abandoned failing changed => trivial
  | taken more staged =>
    rw [gathered_chunk hkind]
    exact h.more hu staged hpos hroom (hwhole.resolve_left more) more
  | installed last staged changed installed slice_eq =>
    rw [gathered_chunk hkind]
    exact (h.last hu staged last).of_slice_eq (changed.slice_eq
      (Layout.installExtents_clear_staging hu h.admits.2 (Nat.le_refl _)
        (Nat.add_le_add_left h.admits.2 _)))
  | unfinished last staged installing reason =>
    rw [gathered_last hkind]
    exact (h.last hu staged last).of_slice_eq (installing.changed.slice_eq
      (Layout.installExtents_clear_staging hu h.admits.2 (Nat.le_refl _)
        (Nat.add_le_add_left h.admits.2 _)))

/-- Whatever a node is sent, what it knows of the image under way stays true. -/
theorem respond_upright (hg : layout.Paged g) (hu : layout.Usable g) {stage : Stage}
    (datagram : Datagram) (h : stage.Upright layout chunks device.flash)
    (hglitch : device.flash.glitch = none) :
    (respond g layout stage datagram).Ensures device (fun _ _ => True)
      (fun outcome device' => outcome.2.Upright layout
        (gathered chunks datagram outcome.1 stage outcome.2) device'.flash) := by
  simp only [respond]
  split
  next stage hkind =>
    -- A jump request may install the image, but leaves what is staged.
    refine ((acceptJump_asks hg hu datagram.data h.inRange).confined device).imp
      (fun _ _ _ => trivial) ?_
    rintro ⟨result, stage'⟩ device' ⟨hresult, hsame⟩
    have hafter := h.of_sameOutside hu hsame (Layout.application_apart hu)
    rw [gathered_jump hkind]
    rcases hresult with rfl | ⟨manifest, rfl, rfl⟩
    · exact hafter
    · exact hafter
  next hkind =>
    by_cases hadmits : ∃ manifest, Manifest.decode datagram.data = .ok manifest
        ∧ layout.Admits manifest
    · obtain ⟨manifest, hdecode, hadmits⟩ := hadmits
      refine (acceptManifest_ensures hg hu hdecode hadmits hglitch).imp (fun _ _ _ => trivial) ?_
      rintro ⟨result, stage'⟩ device' ⟨-, houtcome⟩
      cases houtcome with
      | failed failing kept => trivial
      | taken changed erased =>
        rw [gathered_announcement hkind]
        exact Layout.receives_nothing hadmits erased
    · obtain ⟨fault, heq⟩ := acceptManifest_refused g layout
        fun manifest hdecode h => hadmits ⟨manifest, hdecode, h⟩
      rw [heq]
      exact Procedure.ensures_pure trivial
  next manifest written count hkind =>
    cases hrefuse : refuseChunk g manifest written count datagram with
    | some fault =>
      rw [acceptChunk, hrefuse]
      refine Procedure.ensures_pure ?_
      rw [gathered_same]
      exact h
    | none =>
      exact (acceptChunk_ensures hg hu h.backed hrefuse hglitch).imp (fun _ _ _ => trivial)
        fun _ _ houtcome => upright_chunk hu hkind h hrefuse houtcome.2
  next =>
    refine Procedure.ensures_pure ?_
    rw [gathered_same]
    exact h

end Installer

/-! ## Trials with the chunks that were accepted -/

/-- A trial, and what has been accepted in it. -/
structure Reception (g : Geometry) extends Trial g where
  /-- The chunks accepted since the last accepted announcement. -/
  chunks : List Bytes := []

/-- The state of an update, once there is a layout. -/
def Installer.stage : Installer → Stage
  | .uninitialized => .idle
  | .ready _ stage => stage

namespace Reception

variable {g : Geometry} {layout : Layout} {reception : Reception g}

/-- The reception after one more operation. -/
def step (layout : Layout) (reception : Reception g) (operation : Operation) : Reception g :=
  let next := reception.toTrial.step layout operation
  match operation with
  | .process datagram =>
    let result := ((reception.installer.process g datagram).run reception.device).1.1
    { toTrial := next
      chunks := Installer.gathered reception.chunks datagram result reception.installer.stage
        next.installer.stage }
  | _ => { toTrial := next, chunks := reception.chunks }

def run (layout : Layout) : Reception g → List Operation → Reception g :=
  List.foldl (step layout)

/-- A node that nothing has been done with. -/
def fresh (device : Device g) : Reception g := { toTrial := Trial.fresh device }

/-- The node has no layout yet, or what it knows of the image under way is true of its flash. -/
structure Upright (layout : Layout) (reception : Reception g) : Prop where
  glitch_eq : reception.device.flash.glitch = none
  state : reception.installer = .uninitialized ∨ ∃ stage, reception.installer = .ready layout stage
    ∧ stage.Upright layout reception.chunks reception.device.flash

theorem upright_fresh {device : Device g} (hglitch : device.flash.glitch = none) :
    (fresh device).Upright layout :=
  ⟨hglitch, .inl rfl⟩

theorem step_process {stage : Stage} (hstage : reception.installer = .ready layout stage)
    (datagram : Datagram) :
    reception.step layout (.process datagram)
      = { toTrial := reception.toTrial.step layout (.process datagram)
          chunks := Installer.gathered reception.chunks datagram
            ((Installer.respond g layout stage datagram).run reception.device).1.1 stage
            ((Installer.respond g layout stage datagram).run reception.device).1.2 } := by
  simp only [step, Trial.step_process hstage]
  rw [hstage, Installer.process_run]
  rfl

theorem step_still {operation : Operation} (hstill : ∀ datagram, operation ≠ .process datagram) :
    reception.step layout operation
      = { toTrial := reception.toTrial.step layout operation, chunks := reception.chunks } := by
  cases operation with
  | process datagram => exact absurd rfl (hstill datagram)
  | failSafeJump => rfl
  | checkInstalled => rfl
  | installedImage => rfl
  | configure => rfl
  | planFault operation skip => rfl

theorem toTrial_step (operation : Operation) :
    (reception.step layout operation).toTrial = reception.toTrial.step layout operation := by
  cases operation <;> rfl

theorem step_upright (hg : layout.Paged g) (hu : layout.Usable g) (h : reception.Upright layout)
    (operation : Operation) : (reception.step layout operation).Upright layout := by
  refine ⟨?_, ?_⟩
  · rw [toTrial_step]
    exact Trial.step_glitch h.glitch_eq operation
  rw [toTrial_step]
  rcases h.state with hnone | ⟨stage, hstage, hupright⟩
  · refine (Trial.step_uninitialized hu hnone operation).1.imp id ?_
    exact fun heq => ⟨.idle, heq, trivial⟩
  by_cases hprocess : ∃ datagram, operation = .process datagram
  · obtain ⟨datagram, rfl⟩ := hprocess
    rw [step_process hstage, Trial.step_process hstage]
    exact .inr ⟨_, rfl,
      (Installer.respond_upright hg hu datagram hupright h.glitch_eq).2⟩
  · have hstill : ∀ datagram, operation ≠ .process datagram :=
      fun datagram heq => hprocess ⟨datagram, heq⟩
    obtain ⟨hinstaller, hmemory⟩ := Trial.step_still hg hu hstage hstill
    rw [step_still hstill]
    rcases hinstaller with heq | heq
    · exact .inr ⟨stage, heq, hupright.congr hu hmemory⟩
    · exact .inr ⟨.idle, heq, trivial⟩

/-- All through a trial, what the node knows of the image under way is true of its flash. -/
theorem run_upright (hg : layout.Paged g) (hu : layout.Usable g) (h : reception.Upright layout)
    (operations : List Operation) : (reception.run layout operations).Upright layout := by
  induction operations generalizing reception with
  | nil => exact h
  | cons operation operations ih => exact ih (step_upright hg hu h operation)

/-! ## From the start -/

/-- What taking one more chunk of an image comes to: it is programmed behind the staged ones, and
neither the place behind it nor the count of the chunks leaves 32 bits. -/
structure Advances (layout : Layout) (manifest : Manifest) (written count : Nat) (data : Bytes)
    (requests : List (Request × Device g)) : Prop where
  written_le : written + data.length ≤ manifest.size.toNat
  cursor_lt : layout.staging + (written + data.length) < 0x100000000
  count_lt : count + 1 < 0x100000000
  starts : ∃ bytes device, requests.head? = some (.write (layout.staging + written) bytes, device)

theorem advances (hg : g.Regular) (hu : layout.Usable g) {manifest : Manifest}
    {written count : Nat} {chunks : List Bytes} {device : Device g}
    (h : layout.Receives g manifest written count chunks device.flash) {datagram : Datagram}
    (hkind : datagram.kind = .firmwareChunk)
    (hrefuse : Installer.refuseChunk g manifest written count datagram = none) :
    Advances layout manifest written count datagram.data
      ((Installer.process g (.ready layout (.receiving manifest written count)) datagram).trace
        device) := by
  obtain ⟨-, hpos, hroom, -⟩ :=
    (Installer.refuseChunk_eq_none_iff (Nat.le_of_lt h.written_lt)).1 hrefuse
  have hfits := h.admits.2
  have hstaging := hu.staging_fits
  have hcapacity := hg.capacity_lt
  have hcount := h.count_lt
  have hsize := manifest.size.toNat_lt
  refine ⟨hroom, by omega, by omega, ?_⟩
  obtain ⟨bytes, device', hhead⟩ :=
    Installer.writeChunk_starts (layout.staging + written) hpos device
  refine ⟨bytes, device', ?_⟩
  rw [Installer.process_ready, Procedure.trace_bind, Installer.respond_chunk hkind,
    Installer.acceptChunk, hrefuse]
  simp only
  rw [Procedure.trace_bind, List.append_assoc, List.head?_append, hhead]
  rfl

/-- Whatever a node is sent, whatever its flash held and whichever requests fail: what it knows of
the image under way is true of its flash, it knows of none when it is idle, the next chunk goes
behind the staged ones, and no place that it computes leaves 32 bits. -/
theorem receive_invariant (hg : g.Regular) (hu : layout.Usable g) (device : Device g)
    (hglitch : device.flash.glitch = none) (operations : List Operation) :
    (((fresh device).run layout operations).installer = .uninitialized
      ∨ ∃ stage, ((fresh device).run layout operations).installer = .ready layout stage
        ∧ stage.Upright layout ((fresh device).run layout operations).chunks
          ((fresh device).run layout operations).device.flash
        ∧ (stage = .idle → (Installer.ready layout stage).manifest? = none
          ∧ (Installer.ready layout stage).progress = (0, 0))
        ∧ ∀ manifest written count, stage = .receiving manifest written count →
          ∀ datagram, datagram.kind = .firmwareChunk →
            Installer.refuseChunk g manifest written count datagram = none →
            Advances layout manifest written count datagram.data
              ((Installer.process g (.ready layout stage) datagram).trace
                ((fresh device).run layout operations).device))
    ∧ ∀ moment ∈ (Trial.fresh device).history layout operations,
      moment.request.reach < 0x100000000 := by
  have hupright := run_upright (hg.paged layout) hu (upright_fresh hglitch) operations
  constructor
  · refine hupright.state.imp id ?_
    rintro ⟨stage, hstage, hstate⟩
    refine ⟨stage, hstage, hstate, ?_, ?_⟩
    · rintro rfl
      exact ⟨rfl, rfl⟩
    · rintro manifest written count rfl datagram hkind hrefuse
      exact advances hg hu hstate hkind hrefuse
  · intro moment hmem
    have hwithin := Trial.history_within (hg.paged layout) hu (Trial.inRange_fresh device)
      operations moment hmem
    exact Nat.lt_of_le_of_lt (Layout.reach_le_capacity hu hwithin) hg.capacity_lt

/-- An image of six bytes is announced, with a checksum that is not its own. -/
def pocketManifest : Manifest := { size := 6, crc := 0, id := .ofBytes [0x01] }

def pocketOperations : List Operation :=
  [.configure, .process (pocketManifest.toDatagram 0 none),
    .process (.pack .firmwareChunk 0 none [0x01, 0x02, 0x03, 0x04]),
    .process (.pack .firmwareChunk 1 none [0x05, 0x06])]

/-- The last chunk is staged although the installation behind it fails. -/
theorem receive_invariant_pocket :
    let reception := (fresh ({} : Device Pocket.geometry)).run Pocket.layout pocketOperations
    reception.installer = .ready Pocket.layout (.complete pocketManifest)
      ∧ reception.device.flash.slice 0 6 = [0x01, 0x02, 0x03, 0x04, 0x05, 0x06] := by
  intro reception
  have hstate : reception.installer = .ready Pocket.layout (.complete pocketManifest)
      ∧ reception.chunks = [[0x01, 0x02, 0x03, 0x04], [0x05, 0x06]] := by decide +kernel
  obtain ⟨hnone | ⟨stage, hstage, hupright, -⟩, -⟩ := receive_invariant Pocket.geometry_regular
    Pocket.layout_usable ({} : Device Pocket.geometry) rfl pocketOperations
  · rw [hstate.1] at hnone
    cases hnone
  · rw [hstate.1] at hstage
    cases hstage
    have hstaged := hupright.staged
    rw [hstate.2] at hstaged
    exact ⟨hstate.1, hstaged⟩

end Reception

end Reflash
