/-
  Reflash.Proofs.Install.Steps

  What the steps of an update do to flash. A chunk fills the erased flash it goes to
  and nothing else. An installation leaves, wherever it is stopped, either the part
  as it was, or no record, or the whole image with its record; and it ends well
  unless a request fails or the staged image is not the announced one. Checking and
  leaving change nothing.
-/
import Reflash.Install.Installer
import Reflash.Proofs.Install.Record

namespace Reflash

/-! ## What flash may hold -/

namespace Layout

variable {g : Geometry} {layout : Layout}

/-- Whether an image of this manifest fits into a region. -/
def Admits (layout : Layout) (manifest : Manifest) : Prop :=
  0 < manifest.size.toNat ∧ manifest.size.toNat ≤ layout.regionSize

/-- The size check turns away exactly the images that do not fit. -/
theorem refused_size_iff {manifest : Manifest} :
    (manifest.size = 0 ∨ manifest.size.toNat > layout.regionSize) ↔ ¬layout.Admits manifest := by
  rw [Admits, Classical.not_and_iff_not_or_not, Nat.not_lt, Nat.le_zero, Nat.not_le]
  exact or_congr UInt32.toNat_inj.symm Iff.rfl

/-- The active region begins with an image that has the manifest's checksum. -/
def Runs (layout : Layout) (manifest : Manifest) (flash : Flash g) : Prop :=
  Crc32.padded (flash.slice layout.active manifest.size.toNat) = manifest.crc

/-- The active region holds the manifest's image, and the record page, if there is one, the
manifest. -/
def Installed (layout : Layout) (manifest : Manifest) (flash : Flash g) : Prop :=
  layout.recorded? flash = layout.record?.map (fun _ => manifest) ∧ layout.Runs manifest flash

/-- The record page, if there is one, holds the manifest's record and is erased behind it. -/
def Recorded (layout : Layout) (manifest : Manifest) (flash : Flash g) : Prop :=
  ∀ offset, layout.record? = some offset → flash.slice offset g.eraseSize
    = Record.encode manifest ++ List.replicate (g.eraseSize - recordSize) Flash.erasedByte

/-- Some record vouches for the image in the active region. -/
def Vouched (layout : Layout) (flash : Flash g) : Prop :=
  ∃ manifest, layout.recorded? flash = some manifest ∧ layout.Admits manifest
    ∧ layout.Runs manifest flash

/-- A record, if there is one that could be acted on, vouches for the image in the active
region. -/
def Sound (layout : Layout) (flash : Flash g) : Prop :=
  ∀ manifest, layout.recorded? flash = some manifest → layout.Admits manifest →
    layout.Runs manifest flash

/-- What the installation of an image of `length` bytes may change. -/
def installExtents (g : Geometry) (layout : Layout) (length : Nat) : List Extent :=
  ⟨layout.active, layout.active + Pages.span g length⟩ :: layout.recordPage g

theorem recordPage_clear_staging (hu : layout.Usable g) {offset length : Nat}
    (hlow : layout.staging ≤ offset)
    (hhigh : offset + length ≤ layout.staging + layout.regionSize) :
    ∀ extent ∈ layout.recordPage g, extent.Clear offset length := by
  intro extent hmem
  obtain ⟨page, hrecord, rfl⟩ := mem_recordPage.1 hmem
  have hapart := (hu.record_apart hrecord).1
  rw [Extent.Clear]
  simp only
  omega

theorem recordPage_clear_active (hu : layout.Usable g) {offset length : Nat}
    (hlow : layout.active ≤ offset) (hhigh : offset + length ≤ layout.active + layout.regionSize) :
    ∀ extent ∈ layout.recordPage g, extent.Clear offset length := by
  intro extent hmem
  obtain ⟨page, hrecord, rfl⟩ := mem_recordPage.1 hmem
  have hapart := (hu.record_apart hrecord).2
  rw [Extent.Clear]
  simp only
  omega

/-- An installation leaves the staging region as it is. -/
theorem installExtents_clear_staging (hu : layout.Usable g) {length offset n : Nat}
    (hfits : length ≤ layout.regionSize) (hlow : layout.staging ≤ offset)
    (hhigh : offset + n ≤ layout.staging + layout.regionSize) :
    ∀ extent ∈ layout.installExtents g length, extent.Clear offset n := by
  intro extent hmem
  rcases List.mem_cons.1 hmem with rfl | hmem
  · have hspan := hu.span_le_region hfits
    have hapart := hu.regions_apart
    rw [Extent.Clear]
    simp only
    omega
  · exact recordPage_clear_staging hu hlow hhigh extent hmem

theorem Installed.congr {manifest : Manifest} {before after : Flash g}
    (h : layout.Installed manifest before) (hmemory : after.memory = before.memory) :
    layout.Installed manifest after := by
  refine ⟨?_, ?_⟩
  · rw [recorded?_congr hmemory]
    exact h.1
  · rw [Runs, Flash.slice_of_memory_eq hmemory]
    exact h.2

theorem Installed.sound {manifest : Manifest} {flash : Flash g}
    (h : layout.Installed manifest flash) : layout.Sound flash := by
  intro recorded hrecorded _
  rw [h.1] at hrecorded
  obtain ⟨_, _, rfl⟩ := Option.map_eq_some_iff.1 hrecorded
  exact h.2

theorem Vouched.congr {before after : Flash g} (h : layout.Vouched before)
    (hmemory : after.memory = before.memory) : layout.Vouched after := by
  obtain ⟨manifest, hrecorded, hadmits, hruns⟩ := h
  refine ⟨manifest, ?_, hadmits, ?_⟩
  · rw [recorded?_congr hmemory]
    exact hrecorded
  · rw [Runs, Flash.slice_of_memory_eq hmemory]
    exact hruns

/-- Only the record that is loaded can vouch. -/
theorem Vouched.of_recorded {flash : Flash g} {record : Manifest} (h : layout.Vouched flash)
    (hrecorded : layout.recorded? flash = some record) :
    layout.Admits record ∧ layout.Runs record flash := by
  obtain ⟨record', hrecorded', hrecord'⟩ := h
  rw [hrecorded] at hrecorded'
  cases hrecorded'
  exact hrecord'

theorem not_vouched_of_none {flash : Flash g} (h : layout.recorded? flash = none) :
    ¬layout.Vouched flash := by
  rintro ⟨record, hrecorded, -⟩
  rw [h] at hrecorded
  cases hrecorded

theorem Vouched.sound {flash : Flash g} (h : layout.Vouched flash) : layout.Sound flash := by
  obtain ⟨manifest, hrecorded, -, hruns⟩ := h
  intro manifest' hrecorded' _
  rw [hrecorded] at hrecorded'
  cases hrecorded'
  exact hruns

theorem sound_of_none {flash : Flash g} (h : layout.recorded? flash = none) :
    layout.Sound flash := by
  intro manifest hrecorded
  rw [h] at hrecorded
  cases hrecorded

/-- Soundness depends on the active region and the record page only. -/
theorem Sound.of_changed {before after : Flash g} {extents : List Extent}
    (h : layout.Sound before) (hchanged : Flash.Changed extents before after) (hg : layout.Paged g)
    (hactive : ∀ extent ∈ extents, extent.Clear layout.active layout.regionSize)
    (hrecord : ∀ offset, layout.record? = some offset → ∀ extent ∈ extents,
      extent.Clear offset g.eraseSize) : layout.Sound after := by
  intro manifest hrecorded hadmits
  rw [recorded?_of_changed hchanged hg hrecord] at hrecorded
  have hruns := h manifest hrecorded hadmits
  rw [Runs] at hruns ⊢
  rw [hchanged.slice_eq]
  · exact hruns
  · intro extent hmem
    have hclear := hactive extent hmem
    have hsize := hadmits.2
    rw [Extent.Clear] at hclear ⊢
    omega

theorem Sound.congr {before after : Flash g} (h : layout.Sound before)
    (hmemory : after.memory = before.memory) : layout.Sound after := by
  intro manifest hrecorded hadmits
  rw [recorded?_congr hmemory] at hrecorded
  rw [Runs, Flash.slice_of_memory_eq hmemory]
  exact h manifest hrecorded hadmits

end Layout

namespace Installer

open FlashTask (Failing)

variable {g : Geometry} {flash : Flash g} {layout : Layout}

/-! ## Staging a chunk -/

/-- Programming erased flash fills its beginning. -/
theorem ensures_fill {offset room : Nat} (bytes : Bytes) (hglitch : flash.glitch = none)
    (hstart : g.writeSize ∣ offset) (hwhole : g.writeSize ∣ bytes.length)
    (hroom : bytes.length ≤ room) (hfit : offset + room ≤ g.capacity)
    (hblank : flash.slice offset room = List.replicate room Flash.erasedByte) :
    (FlashTask.write offset bytes).Ensures flash
      (Flash.Changed [⟨offset, offset + room⟩] flash)
      (fun _ after => Flash.Changed [⟨offset, offset + room⟩] flash after
        ∧ after.slice offset room
          = bytes ++ List.replicate (room - bytes.length) Flash.erasedByte)
      (fun fault after => Failing flash fault
        ∧ Flash.Changed [⟨offset, offset + room⟩] flash after) := by
  obtain ⟨rest, rfl⟩ := Nat.exists_eq_add_of_le hroom
  rw [Flash.slice_append _ hfit, ← List.replicate_append_replicate] at hblank
  obtain ⟨hhead, htail⟩ := List.append_inj hblank
    (by rw [Flash.length_slice (by omega), List.length_replicate])
  -- Only the beginning of the room has to be erased for the write, but all of it is.
  have hraises : Flash.raises (flash.slice offset bytes.length) bytes = false := by
    rw [hhead]
    exact Flash.raises_replicate _ _
  have hwrite := FlashTask.ensures_write hglitch (by omega) (Nat.mod_eq_zero_of_dvd hstart)
    (Nat.mod_eq_zero_of_dvd hwhole) hraises
  have hchanged : ∀ {after}, Flash.Became flash (Flash.patch flash.memory offset bytes) after →
      Flash.Changed [⟨offset, offset + (bytes.length + rest)⟩] flash after := fun h =>
    h.changed ⟨_, List.mem_singleton_self _, Nat.le_refl _, by simp only; omega⟩
  refine hwrite.imp ?_ ?_ fun _ _ h => ⟨h.1, h.2.changed _⟩
  · rintro after (h | h)
    · exact h.changed _
    · exact hchanged h
  · intro _ after h
    refine ⟨hchanged h, ?_⟩
    rw [Flash.slice_append _ hfit, Flash.slice_patch_self h.memory_eq (by omega),
      Flash.slice_patch_apart h.memory_eq (by omega), htail, Nat.add_sub_cancel_left]

/-- How much of a chunk is whole writes. -/
def wholeWrites (g : Geometry) (data : Bytes) : Nat :=
  data.length - data.length % g.writeSize

/-- Programs the whole writes of a chunk, if there are any. -/
def writeFront (g : Geometry) (offset : Nat) (data : Bytes) : FlashTask Unit :=
  if 0 < wholeWrites g data then FlashTask.write offset (data.take (wholeWrites g data))
  else pure ()

/-- What is behind the whole writes of a chunk, filled up to one more. -/
def tailWrite (g : Geometry) (data : Bytes) : Bytes :=
  data.drop (wholeWrites g data)
    ++ List.replicate (g.writeSize - (data.drop (wholeWrites g data)).length) Flash.erasedByte

/-- Programs what is behind the whole writes, if there is anything. -/
def writeTail (g : Geometry) (offset : Nat) (data : Bytes) : FlashTask Unit :=
  if wholeWrites g data < data.length then
    FlashTask.write (offset + wholeWrites g data) (tailWrite g data)
  else pure ()

theorem writeChunk_eq (g : Geometry) (offset : Nat) (data : Bytes) :
    writeChunk g offset data = (do
      writeFront g offset data
      writeTail g offset data) := by
  rw [writeChunk, ← wholeWrites, writeFront, writeTail, tailWrite]
  by_cases hpos : 0 < wholeWrites g data
  · rw [if_pos hpos, if_pos hpos]
  · rw [if_neg hpos, if_neg hpos]
    rfl

theorem dvd_wholeWrites (g : Geometry) (data : Bytes) : g.writeSize ∣ wholeWrites g data :=
  Nat.dvd_sub_mod _

theorem wholeWrites_le (g : Geometry) (data : Bytes) : wholeWrites g data ≤ data.length :=
  Nat.sub_le _ _

theorem length_take_wholeWrites (g : Geometry) (data : Bytes) :
    (data.take (wholeWrites g data)).length = wholeWrites g data :=
  List.length_take_of_le (wholeWrites_le g data)

theorem length_behind_wholeWrites (hwrite : 0 < g.writeSize) (data : Bytes) :
    (data.drop (wholeWrites g data)).length < g.writeSize := by
  have hmod := Nat.mod_lt data.length hwrite
  rw [List.length_drop, wholeWrites]
  omega

theorem length_tailWrite (hwrite : 0 < g.writeSize) (data : Bytes) :
    (tailWrite g data).length = g.writeSize := by
  rw [tailWrite, List.length_append, List.length_replicate]
  exact Nat.add_sub_cancel' (Nat.le_of_lt (length_behind_wholeWrites hwrite data))

theorem ensures_writeFront {offset room : Nat} (data : Bytes) (hglitch : flash.glitch = none)
    (hstart : g.writeSize ∣ offset) (hroom : data.length ≤ room)
    (hfit : offset + room ≤ g.capacity)
    (hblank : flash.slice offset room = List.replicate room Flash.erasedByte) :
    (writeFront g offset data).Ensures flash
      (Flash.Changed [⟨offset, offset + room⟩] flash)
      (fun _ after => Flash.Changed [⟨offset, offset + room⟩] flash after
        ∧ after.slice offset room = data.take (wholeWrites g data)
          ++ List.replicate (room - wholeWrites g data) Flash.erasedByte)
      (fun fault after => Failing flash fault
        ∧ Flash.Changed [⟨offset, offset + room⟩] flash after) := by
  have hhead := length_take_wholeWrites g data
  have hle := wholeWrites_le g data
  rw [writeFront]
  by_cases hpos : 0 < wholeWrites g data
  · rw [if_pos hpos]
    have hfill := ensures_fill (data.take (wholeWrites g data)) hglitch hstart
      (by rw [hhead]; exact dvd_wholeWrites g data) (by omega) hfit hblank
    rw [hhead] at hfill
    exact hfill
  · rw [if_neg hpos]
    refine FlashTask.ensures_pure ⟨(Flash.Kept.refl hglitch).changed _, ?_⟩
    rw [show wholeWrites g data = 0 from by omega, List.take_zero, List.nil_append, Nat.sub_zero]
    exact hblank

theorem ensures_writeTail {offset room : Nat} (data : Bytes) (hwrite : 0 < g.writeSize)
    (hglitch : flash.glitch = none) (hstart : g.writeSize ∣ offset) (hwhole : g.writeSize ∣ room)
    (hroom : data.length ≤ room) (hfit : offset + room ≤ g.capacity)
    (hslice : flash.slice offset room = data.take (wholeWrites g data)
      ++ List.replicate (room - wholeWrites g data) Flash.erasedByte) :
    (writeTail g offset data).Ensures flash
      (Flash.Changed [⟨offset, offset + room⟩] flash)
      (fun _ after => Flash.Changed [⟨offset, offset + room⟩] flash after
        ∧ after.slice offset room
          = data ++ List.replicate (room - data.length) Flash.erasedByte)
      (fun fault after => Failing flash fault
        ∧ Flash.Changed [⟨offset, offset + room⟩] flash after) := by
  have hdvd := dvd_wholeWrites g data
  have hle := wholeWrites_le g data
  have htail := length_tailWrite hwrite data
  have hbehind := length_behind_wholeWrites hwrite data
  rw [List.length_drop] at hbehind
  rw [writeTail]
  by_cases hmore : wholeWrites g data < data.length
  · rw [if_pos hmore]
    obtain ⟨behind, rfl⟩ := Nat.exists_eq_add_of_le (Nat.le_trans hle hroom)
    -- The room ends on a whole write, so that there is room for one more of them.
    have hone : g.writeSize ≤ behind :=
      Nat.le_of_dvd (by omega) ((Nat.dvd_add_right hdvd).1 hwhole)
    rw [Nat.add_sub_cancel_left, Flash.slice_append _ hfit] at hslice
    obtain ⟨hwritten, herased⟩ := List.append_inj hslice
      (by rw [Flash.length_slice (by omega), length_take_wholeWrites])
    have hfill := ensures_fill (tailWrite g data) hglitch (Nat.dvd_add hstart hdvd)
      (htail ▸ Nat.dvd_refl _) (by omega) (by omega) herased
    have hwiden : ∀ {after}, Flash.Changed
        [⟨offset + wholeWrites g data, offset + wholeWrites g data + behind⟩] flash after →
        Flash.Changed [⟨offset, offset + (wholeWrites g data + behind)⟩] flash after := fun h =>
      h.widen (by simp; omega)
    refine hfill.imp (fun _ h => hwiden h) ?_ fun _ _ h => ⟨h.1, hwiden h.2⟩
    rintro _ after ⟨hafter, hfilled⟩
    refine ⟨hwiden hafter, ?_⟩
    rw [Flash.slice_append _ hfit, hfilled, hafter.slice_eq (by simp [Extent.Clear]), hwritten,
      htail, tailWrite, List.append_assoc, ← List.append_assoc, List.take_append_drop,
      List.replicate_append_replicate]
    congr 2
    rw [List.length_drop]
    omega
  · rw [if_neg hmore]
    refine FlashTask.ensures_pure ⟨(Flash.Kept.refl hglitch).changed _, ?_⟩
    rwa [show wholeWrites g data = data.length from by omega, List.take_length] at hslice

/-- A chunk fills the beginning of the erased flash it goes to, up to a whole write. -/
theorem ensures_writeChunk {offset room : Nat} (data : Bytes) (hu : layout.Usable g)
    (hglitch : flash.glitch = none) (hstart : g.writeSize ∣ offset) (hwhole : g.writeSize ∣ room)
    (hroom : data.length ≤ room) (hfit : offset + room ≤ g.capacity)
    (hblank : flash.slice offset room = List.replicate room Flash.erasedByte) :
    (writeChunk g offset data).Ensures flash
      (Flash.Changed [⟨offset, offset + room⟩] flash)
      (fun _ after => Flash.Changed [⟨offset, offset + room⟩] flash after
        ∧ after.slice offset room
          = data ++ List.replicate (room - data.length) Flash.erasedByte)
      (fun fault after => Failing flash fault
        ∧ Flash.Changed [⟨offset, offset + room⟩] flash after) := by
  rw [writeChunk_eq]
  refine (ensures_writeFront data hglitch hstart hroom hfit hblank).bind ?_
  rintro _ mid ⟨hchanged, hslice⟩
  have htail := ensures_writeTail data hu.write_pos hchanged.glitch_eq hstart hwhole hroom hfit
    hslice
  exact htail.imp (fun _ h => hchanged.trans h) (fun _ _ h => ⟨hchanged.trans h.1, h.2⟩)
    fun _ _ h => ⟨h.1.of_changed hchanged, hchanged.trans h.2⟩

/-! ## Installing -/

/-- Erases the record page, if there is one. -/
def clearRecord (g : Geometry) (layout : Layout) : FlashTask Unit :=
  match layout.record? with
  | some offset => Record.clear g offset
  | none => pure ()

/-- Rewrites the record page, if there is one. -/
def storeRecord (g : Geometry) (layout : Layout) (manifest : Manifest) : FlashTask Unit :=
  match layout.record? with
  | some offset => Record.store g offset manifest
  | none => pure ()

/-- Checks the image in a region against the manifest. -/
def checkImage (offset : Nat) (manifest : Manifest) : FlashTask Unit := do
  let crc ← Pages.crc offset manifest.size.toNat
  if crc ≠ manifest.crc then throw .flashVerificationFailed else pure ()

theorem finalize_eq (g : Geometry) (layout : Layout) (manifest : Manifest) :
    finalize g layout manifest = (do
      checkImage layout.staging manifest
      clearRecord g layout
      Pages.copy g layout.staging layout.active manifest.size.toNat
      checkImage layout.active manifest
      storeRecord g layout manifest) := by
  simp only [finalize, checkImage, clearRecord, storeRecord]
  cases layout.record?
  all_goals simp only [bind_assoc, pure_bind, FlashTask.throw_bind, FlashTask.check_bind]

theorem ensures_clearRecord (hg : layout.Paged g) (hglitch : flash.glitch = none)
    (hu : layout.Usable g) :
    (clearRecord g layout).Ensures flash
      (fun after => Flash.Kept flash after
        ∨ Flash.Changed (layout.recordPage g) flash after ∧ layout.recorded? after = none)
      (fun _ after =>
        Flash.Changed (layout.recordPage g) flash after ∧ layout.recorded? after = none)
      (fun fault after => Failing flash fault ∧ Flash.Kept flash after) := by
  rw [clearRecord]
  cases hrecord : layout.record? with
  | none =>
    refine FlashTask.ensures_pure ⟨(Flash.Kept.refl hglitch).changed _, ?_⟩
    rw [Layout.recorded?, hrecord]
    rfl
  | some offset =>
    have hcleared : ∀ {after}, Record.Cleared g offset flash after →
        Flash.Changed (layout.recordPage g) flash after ∧ layout.recorded? after = none :=
      fun h => ⟨h.changed hrecord, h.recorded?_eq hg hu hrecord⟩
    refine (Record.ensures_clear hglitch hu hrecord).imp ?_ (fun _ _ h => hcleared h)
      fun _ _ h => h
    rintro after (h | h)
    · exact .inl h
    · exact .inr (hcleared h)

theorem ensures_storeRecord (hg : layout.Paged g) (hglitch : flash.glitch = none)
    (hu : layout.Usable g) (hnone : layout.recorded? flash = none) (manifest : Manifest) :
    (storeRecord g layout manifest).Ensures flash
      (fun after => Flash.Changed (layout.recordPage g) flash after
        ∧ (layout.recorded? after = none
          ∨ layout.recorded? after = layout.record?.map (fun _ => manifest)))
      (fun _ after => Flash.Changed (layout.recordPage g) flash after
        ∧ layout.recorded? after = layout.record?.map (fun _ => manifest)
        ∧ layout.Recorded manifest after)
      (fun fault after => Failing flash fault
        ∧ Flash.Changed (layout.recordPage g) flash after ∧ layout.recorded? after = none) := by
  rw [storeRecord]
  cases hrecord : layout.record? with
  | none =>
    refine FlashTask.ensures_pure ⟨(Flash.Kept.refl hglitch).changed _, hnone, ?_⟩
    rw [Layout.Recorded, hrecord]
    nofun
  | some offset =>
    have hkept : ∀ {after}, Flash.Kept flash after →
        Flash.Changed (layout.recordPage g) flash after ∧ layout.recorded? after = none :=
      fun h => ⟨h.changed _, (Layout.recorded?_congr h.memory_eq).trans hnone⟩
    have hcleared : ∀ {after}, Record.Cleared g offset flash after →
        Flash.Changed (layout.recordPage g) flash after ∧ layout.recorded? after = none :=
      fun h => ⟨h.changed hrecord, h.recorded?_eq hg hu hrecord⟩
    have hstored : ∀ {after}, Record.Stored g offset manifest flash after →
        Flash.Changed (layout.recordPage g) flash after
          ∧ layout.recorded? after = some manifest :=
      fun h => ⟨h.changed hg hrecord, h.recorded?_eq hg hu hrecord⟩
    refine (Record.ensures_store hg hglitch hu hrecord manifest).imp ?_ ?_ ?_
    · rintro after (h | h | h)
      · exact ⟨(hkept h).1, .inl (hkept h).2⟩
      · exact ⟨(hcleared h).1, .inl (hcleared h).2⟩
      · exact ⟨(hstored h).1, .inr (hstored h).2⟩
    · intro _ after h
      refine ⟨(hstored h).1, (hstored h).2, ?_⟩
      rw [Layout.Recorded, hrecord]
      rintro _ ⟨⟩
      exact h.slice_eq hg hu hrecord
    · rintro fault after ⟨hfailing, h | h⟩
      · exact ⟨hfailing, hkept h⟩
      · exact ⟨hfailing, hcleared h⟩

/-- An image is found to match its manifest exactly when it does. -/
theorem ensures_checkImage {offset : Nat} {manifest : Manifest} (hglitch : flash.glitch = none)
    (hfit : offset + manifest.size.toNat ≤ g.capacity) :
    (checkImage offset manifest).Ensures flash (Flash.Kept flash)
      (fun _ after => Flash.Kept flash after
        ∧ Crc32.padded (flash.slice offset manifest.size.toNat) = manifest.crc)
      (fun fault after => Flash.Kept flash after ∧ (Failing flash fault
        ∨ fault = .flashVerificationFailed
          ∧ Crc32.padded (flash.slice offset manifest.size.toNat) ≠ manifest.crc)) := by
  refine FlashTask.Ensures.bind ((Pages.crc_reads _ _ hglitch hfit).imp (fun _ h => h)
    (fun _ _ h => h) fun _ _ h => ⟨h.2, .inl h.1⟩) ?_
  rintro _ mid ⟨rfl, hkept⟩
  by_cases hcrc : Crc32.padded (flash.slice offset manifest.size.toNat) ≠ manifest.crc
  · rw [if_pos hcrc]
    exact FlashTask.ensures_throw ⟨hkept, .inr ⟨rfl, hcrc⟩⟩
  · rw [if_neg hcrc]
    exact FlashTask.ensures_pure ⟨hkept, Classical.not_not.1 hcrc⟩

theorem copy_changed {source destination n erased last : Nat} {after : Flash g}
    (h : Pages.Copied flash source destination n erased after) (hsource : source + n ≤ g.capacity)
    (hlast : destination + (n + erased) ≤ last) :
    Flash.Changed [⟨destination, last⟩] flash after := by
  refine Flash.Became.changed h ⟨_, List.mem_singleton_self _, Nat.le_refl _, ?_⟩
  rw [List.length_append, List.length_replicate, Flash.length_slice hsource]
  exact hlast

/-- An installation on its way: nothing has been done yet, or no record is left, or all has been
done. -/
structure Installing (layout : Layout) (manifest : Manifest) (flash after : Flash g) : Prop where
  changed : Flash.Changed (layout.installExtents g manifest.size.toNat) flash after
  progress : Flash.Kept flash after ∨ layout.recorded? after = none
    ∨ layout.Installed manifest after

/-- Copying the staged image leaves the record page, and ends with the image in the active
region. -/
theorem ensures_install (hg : layout.Paged g) (hu : layout.Usable g) {manifest : Manifest}
    (hfits : manifest.size.toNat ≤ layout.regionSize) (hglitch : flash.glitch = none)
    (hnone : layout.recorded? flash = none) :
    (Pages.copy g layout.staging layout.active manifest.size.toNat).Ensures flash
      (fun after => Flash.Changed (layout.installExtents g manifest.size.toNat) flash after
        ∧ layout.recorded? after = none)
      (fun _ after => (Flash.Changed (layout.installExtents g manifest.size.toNat) flash after
        ∧ layout.recorded? after = none)
        ∧ after.slice layout.active (Pages.span g manifest.size.toNat)
          = flash.slice layout.staging (Pages.span g manifest.size.toNat))
      (fun fault after => Failing flash fault
        ∧ Flash.Changed (layout.installExtents g manifest.size.toNat) flash after
        ∧ layout.recorded? after = none) := by
  have hspan := hu.span_le_region hfits
  have hstaging := hu.staging_fits
  have hactive := hu.active_fits
  have hapart := hu.regions_apart
  have hcopy := Pages.ensures_copy layout.staging layout.active manifest.size.toNat hu.page_pos
    hg.write_dvd_page hu.write_dvd_block hu.page_dvd_active (by omega) (by omega) (by omega)
    hglitch
  -- However far the copy has come, it has left the record page alone.
  have hchanged : ∀ {n erased after}, n + erased ≤ Pages.span g manifest.size.toNat →
      Pages.Copied flash layout.staging layout.active n erased after →
      Flash.Changed (layout.installExtents g manifest.size.toNat) flash after
        ∧ layout.recorded? after = none := by
    intro n erased after hn h
    have hregion := copy_changed h (by omega) (Nat.add_le_add_left hn _)
    refine ⟨hregion.widen ?_, ?_⟩
    · intro extent hmem
      exact ⟨extent, List.mem_cons.2 (.inl (List.mem_singleton.1 hmem)), Nat.le_refl _,
        Nat.le_refl _⟩
    · rw [Layout.recorded?_of_changed hregion hg, hnone]
      intro offset hrecord extent hmem
      have hout := (hu.record_apart hrecord).2
      rw [List.mem_singleton.1 hmem, Extent.Clear]
      simp only
      omega
  refine hcopy.imp ?_ ?_ ?_
  · rintro after ⟨n, erased, _, _, hn, h⟩
    exact hchanged hn h
  · intro _ after h
    exact ⟨hchanged (Nat.le_refl _) h, h.slice_self (by omega) (by omega)⟩
  · rintro fault after ⟨hfailing, hhalted⟩
    obtain ⟨n, erased, _, _, hn, h⟩ := hhalted.underWay
    exact ⟨hfailing, hchanged hn h⟩

/-- Whatever stops an installation, a record is left only as long as nothing has been done or
when all has been done. -/
theorem ensures_finalize (hg : layout.Paged g) (hu : layout.Usable g) {manifest : Manifest}
    (hfits : manifest.size.toNat ≤ layout.regionSize) (hglitch : flash.glitch = none) :
    (finalize g layout manifest).Ensures flash
      (Installing layout manifest flash)
      (fun _ after => Flash.Changed (layout.installExtents g manifest.size.toNat) flash after
        ∧ layout.Installed manifest after
        ∧ after.slice layout.active (Pages.span g manifest.size.toNat)
          = flash.slice layout.staging (Pages.span g manifest.size.toNat)
        ∧ layout.Recorded manifest after)
      (fun fault after => Installing layout manifest flash after ∧ (Failing flash fault
        ∨ fault = .flashVerificationFailed
          ∧ Crc32.padded (flash.slice layout.staging manifest.size.toNat) ≠ manifest.crc)) := by
  have hspan := hu.span_le_region hfits
  have hstaging := hu.staging_fits
  have hactive := hu.active_fits
  have hle := Pages.le_span hu.page_pos manifest.size.toNat
  have hkept : ∀ {after}, Flash.Kept flash after → Installing layout manifest flash after :=
    fun h => ⟨h.changed _, .inl h⟩
  have hpage : ∀ {before after : Flash g}, Flash.Changed (layout.recordPage g) before after →
      Flash.Changed (layout.installExtents g manifest.size.toNat) before after := fun h =>
    h.widen fun extent hmem => ⟨extent, List.mem_cons_of_mem _ hmem, Nat.le_refl _, Nat.le_refl _⟩
  rw [finalize_eq]
  -- The staged image is what was announced.
  refine FlashTask.Ensures.bind ((ensures_checkImage hglitch (by omega)).imp (fun _ h => hkept h)
    (fun _ _ h => h) fun _ _ h => ⟨hkept h.1, h.2⟩) ?_
  rintro _ checked ⟨hchecked, hcrc⟩
  -- No record is left.
  refine FlashTask.Ensures.bind ((ensures_clearRecord hg hchecked.glitch_eq hu).imp ?_
    (fun _ _ h => h) fun _ _ h => ⟨hkept (hchecked.then_kept h.2), .inl (h.1.of_became hchecked)⟩)
    ?_
  · rintro after (h | ⟨h, hnone⟩)
    · exact hkept (hchecked.then_kept h)
    · exact ⟨(hchecked.changed _).trans (hpage h), .inr (.inl hnone)⟩
  rintro _ cleared ⟨hpaged, hnone⟩
  have hcleared := (hchecked.changed _).trans (hpage hpaged)
  -- The active region is copied to.
  refine FlashTask.Ensures.bind ((ensures_install hg hu hfits hcleared.glitch_eq hnone).imp
    (fun _ h => ⟨hcleared.trans h.1, .inr (.inl h.2)⟩) (fun _ _ h => h)
    fun _ _ h => ⟨⟨hcleared.trans h.2.1, .inr (.inl h.2.2)⟩, .inl (h.1.of_changed hcleared)⟩) ?_
  rintro _ copied ⟨⟨hregion, hnone'⟩, hslice⟩
  have hcopied := hcleared.trans hregion
  rw [hcleared.slice_eq (Layout.installExtents_clear_staging hu hfits (Nat.le_refl _)
    (by omega))] at hslice
  have hruns : Crc32.padded (copied.slice layout.active manifest.size.toNat) = manifest.crc := by
    rw [← Flash.slice_take copied _ hle, hslice, Flash.slice_take _ _ hle]
    exact hcrc
  have hstopped : ∀ {after}, Flash.Changed (layout.recordPage g) copied after →
      layout.recorded? after = none → Installing layout manifest flash after :=
    fun h hnone => ⟨hcopied.trans (hpage h), .inr (.inl hnone)⟩
  -- The copy reads back right.
  refine FlashTask.Ensures.bind ((ensures_checkImage hcopied.glitch_eq (by omega)).imp
    (fun _ h => hstopped (h.changed _) ((Layout.recorded?_congr h.memory_eq).trans hnone'))
    (fun _ _ h => h) ?_) ?_
  · rintro fault after ⟨h, hfailing | ⟨_, hne⟩⟩
    · exact ⟨hstopped (h.changed _) ((Layout.recorded?_congr h.memory_eq).trans hnone'),
        .inl (hfailing.of_changed hcopied)⟩
    · exact absurd hruns hne
  rintro _ verified ⟨hverified, -⟩
  -- The record is written.
  have hstored : ∀ {after}, Flash.Changed (layout.recordPage g) verified after →
      layout.recorded? after = layout.record?.map (fun _ => manifest) →
      layout.Installed manifest after := by
    intro after h hrecorded
    refine ⟨hrecorded, ?_⟩
    rw [Layout.Runs, h.slice_eq (Layout.recordPage_clear_active hu (Nat.le_refl _) (by omega)),
      hverified.slice_eq]
    exact hruns
  refine (ensures_storeRecord hg hverified.glitch_eq hu
    ((Layout.recorded?_congr hverified.memory_eq).trans hnone') manifest).imp ?_ ?_ ?_
  · rintro after ⟨h, hnone | hrecorded⟩
    · exact hstopped ((hverified.changed _).trans h) hnone
    · exact ⟨hcopied.trans (hpage ((hverified.changed _).trans h)),
        .inr (.inr (hstored h hrecorded))⟩
  · rintro _ after ⟨h, hrecorded, hwritten⟩
    refine ⟨hcopied.trans (hpage ((hverified.changed _).trans h)), hstored h hrecorded, ?_,
      hwritten⟩
    rw [h.slice_eq (Layout.recordPage_clear_active hu (Nat.le_refl _) (by omega)),
      hverified.slice_eq, hslice]
  · rintro fault after ⟨hfailing, h, hnone⟩
    exact ⟨hstopped ((hverified.changed _).trans h) hnone,
      .inl ((hfailing.of_became hverified).of_changed hcopied)⟩

/-! ## Checking and leaving -/

/-- With a record page, the check passes exactly where a record vouches for the active region,
unless a read fails. -/
theorem ensures_checkActive (hg : layout.Paged g) (hu : layout.Usable g) {offset : Nat}
    (hrecord : layout.record? = some offset) (hglitch : flash.glitch = none) :
    (checkActive layout).Ensures flash (Flash.Kept flash)
      (fun _ after => Flash.Kept flash after ∧ layout.Vouched flash)
      (fun fault after => Flash.Kept flash after
        ∧ (Failing flash fault ∨ ¬layout.Vouched flash)) := by
  have hactive := hu.active_fits
  rw [checkActive, hrecord]
  refine FlashTask.Ensures.bind ((Record.load_reads hg hglitch hu hrecord).imp (fun _ h => h)
    (fun _ _ h => h) fun _ _ h => ⟨h.2, .inl h.1⟩) ?_
  rintro _ loaded ⟨rfl, hloaded⟩
  cases hrecorded : layout.recorded? flash with
  | none => exact FlashTask.ensures_throw ⟨hloaded, .inr (Layout.not_vouched_of_none hrecorded)⟩
  | some record =>
    show FlashTask.Ensures (if record.size = 0 ∨ record.size.toNat > layout.regionSize then
      throw Fault.flashVerificationFailed >>= fun _ => _ else _) _ _ _ _
    by_cases hadmits : layout.Admits record
    case neg =>
      rw [if_pos (Layout.refused_size_iff.2 hadmits)]
      exact FlashTask.ensures_throw
        ⟨hloaded, .inr fun hvouched => hadmits (hvouched.of_recorded hrecorded).1⟩
    rw [if_neg fun hsize => Layout.refused_size_iff.1 hsize hadmits]
    have hfits := hadmits.2
    refine FlashTask.Ensures.bind ((Pages.crc_reads _ _ hloaded.glitch_eq (by omega)).imp
      (fun _ h => hloaded.then_kept h) (fun _ _ h => h)
      fun _ _ h => ⟨hloaded.then_kept h.2, .inl (h.1.of_became hloaded)⟩) ?_
    rintro _ read ⟨rfl, h⟩
    have hread := hloaded.then_kept h
    rw [hloaded.slice_eq]
    by_cases hcrc : Crc32.padded (flash.slice layout.active record.size.toNat) ≠ record.crc
    · rw [if_pos hcrc]
      exact FlashTask.ensures_throw ⟨hread, .inr fun h => hcrc (h.of_recorded hrecorded).2⟩
    · rw [if_neg hcrc]
      exact FlashTask.ensures_pure
        ⟨hread, record, hrecorded, hadmits, Classical.not_not.1 hcrc⟩

/-- What comes of leaving the bootloader. -/
inductive LeaveOutcome (layout : Layout) (manifest : Manifest) (device : Device g) :
    Fault → Device g → Prop
  /-- The jump was made, and came back. -/
  | jumped {device' : Device g} (kept : Flash.Kept device.flash device'.flash)
      (written : (device.flash.slice layout.active manifest.size.toNat).all
        (· == Flash.erasedByte) = false)
      (jumper_eq : device'.jumper = (device.jumper.jump .application).2) :
      LeaveOutcome layout manifest device .bootloaderFailure device'
  | blank {device' : Device g} (kept : Flash.Kept device.flash device'.flash)
      (blank : (device.flash.slice layout.active manifest.size.toNat).all
        (· == Flash.erasedByte) = true)
      (jumper_eq : device'.jumper = device.jumper) :
      LeaveOutcome layout manifest device .flashVerificationFailed device'
  | failed {fault : Fault} {device' : Device g} (kept : Flash.Kept device.flash device'.flash)
      (failing : Failing device.flash fault) : LeaveOutcome layout manifest device fault device'

theorem LeaveOutcome.kept {manifest : Manifest} {device device' : Device g} {fault : Fault}
    (h : LeaveOutcome layout manifest device fault device') :
    Flash.Kept device.flash device'.flash := by
  cases h with
  | jumped kept written jumper_eq => exact kept
  | blank kept blank jumper_eq => exact kept
  | failed kept failing => exact kept

/-- Leaving the bootloader changes no flash, and jumps to the application unless its place is
blank. -/
theorem ensures_leave (hu : layout.Usable g) {manifest : Manifest}
    (hfits : manifest.size.toNat ≤ layout.regionSize) {device : Device g}
    (hglitch : device.flash.glitch = none) :
    (leave layout manifest).Ensures device
      (fun _ device' => Flash.Kept device.flash device'.flash)
      (LeaveOutcome layout manifest device) := by
  have hactive := hu.active_fits
  have hblank := Pages.isBlank_reads layout.active manifest.size.toNat hglitch (by omega)
  refine hblank.run (fun _ _ _ hkept => hkept) ?_ ?_
  · rintro _ flash' ⟨rfl, hkept⟩
    cases hall : (device.flash.slice layout.active manifest.size.toNat).all
      (· == Flash.erasedByte) with
    | true => exact Procedure.ensures_pure (.blank hkept hall rfl)
    | false =>
      refine ⟨?_, .jumped hkept hall rfl⟩
      intro step hstep
      obtain rfl := List.mem_singleton.1 hstep
      exact hkept
  · rintro fault flash' ⟨hfailing, hkept⟩
    exact Procedure.ensures_pure (.failed hkept hfailing)

end Installer

end Reflash
