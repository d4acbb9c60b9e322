/-
  Reflash.Proofs.Install.Record

  The image record reads back what was written, and an erased page holds none. What
  a layout's record page says of a part is `Layout.recorded?`; erasing and rewriting
  the page goes from one record over none to the other.
-/
import Reflash.Install.Record
import Reflash.Proofs.Codec
import Reflash.Proofs.Install.Layout

namespace Reflash

/-! ## The encoding -/

namespace Record

@[simp] theorem length_encode (manifest : Manifest) :
    (encode manifest).length = Layout.recordSize := by
  simp [encode, manifest.id.length_bytes, Layout.recordSize]

theorem decode?_encode (manifest : Manifest) (behind : Bytes) :
    decode? (encode manifest ++ behind) = some manifest := by
  have hmagic : LittleEndian.word32At (encode manifest ++ behind) 0 = magic :=
    LittleEndian.word32At_eq (by rw [List.drop_zero, encode, List.append_assoc])
  have hsize : LittleEndian.word32At (encode manifest ++ behind) 8 = manifest.size :=
    LittleEndian.word32At_eq (by simp [encode, LittleEndian.encode32]; rfl)
  have hcrc : LittleEndian.word32At (encode manifest ++ behind) 12 = manifest.crc :=
    LittleEndian.word32At_eq (by simp [encode, LittleEndian.encode32]; rfl)
  have hid : (encode manifest ++ behind).drop 16 = manifest.id.bytes ++ behind := by
    simp [encode, LittleEndian.encode32]
  rw [decode?, if_neg (by rw [hmagic]; simp), hsize, hcrc, hid, FirmwareId.ofBytes_append]
  rfl

/-- An erased page holds no record. -/
theorem decode?_erased :
    decode? (List.replicate Layout.recordSize Flash.erasedByte) = none := by
  rfl

end Record

/-! ## What is recorded -/

namespace Layout

variable {g : Geometry} {layout : Layout}

/-- The record that the record page holds, if there is such a page and it holds one. -/
def recorded? (layout : Layout) (flash : Flash g) : Option Manifest :=
  layout.record?.bind fun offset => Record.decode? (flash.slice offset recordSize)

theorem recorded?_eq {offset : Nat} (hrecord : layout.record? = some offset) (flash : Flash g) :
    layout.recorded? flash = Record.decode? (flash.slice offset recordSize) := by
  rw [recorded?, hrecord]
  rfl

theorem recorded?_congr {before after : Flash g} (h : after.memory = before.memory) :
    layout.recorded? after = layout.recorded? before := by
  rw [recorded?]
  congr 1
  funext offset
  rw [Flash.slice_of_memory_eq h]

/-- Changes outside the record page leave the record. -/
theorem recorded?_of_changed {before after : Flash g} {extents : List Extent}
    (h : Flash.Changed extents before after) (hg : layout.Paged g)
    (hclear : ∀ offset, layout.record? = some offset → ∀ extent ∈ extents,
      extent.Clear offset g.eraseSize) : layout.recorded? after = layout.recorded? before := by
  simp only [recorded?]
  cases hrecord : layout.record? with
  | none => rfl
  | some offset =>
    show Record.decode? _ = Record.decode? _
    rw [h.slice_eq]
    intro extent hmem
    have hpage := hclear offset hrecord extent hmem
    have hle := hg.record_le_page hrecord
    rw [Extent.Clear] at hpage ⊢
    omega

end Layout

/-! ## Requests on the record page -/

namespace Record

variable {g : Geometry} {flash : Flash g} {layout : Layout} {offset : Nat}

/-- Reading the record page gives what is recorded. -/
theorem load_reads (hg : layout.Paged g) (hglitch : flash.glitch = none) (hu : layout.Usable g)
    (hrecord : layout.record? = some offset) :
    (load offset).Reads flash (layout.recorded? flash) := by
  have hfits := hu.record_fits hrecord
  have hle := hg.record_le_page hrecord
  have hread := FlashTask.read_reads offset Layout.recordSize hglitch (by omega)
  rw [Layout.recorded?_eq hrecord]
  exact hread.bind fun flash' hkept => FlashTask.reads_pure hkept.glitch_eq _

/-- A part whose record page has been erased. -/
def Cleared (g : Geometry) (offset : Nat) (before after : Flash g) : Prop :=
  Flash.Became before
    (Flash.patch before.memory offset (List.replicate g.eraseSize Flash.erasedByte)) after

/-- A part whose record page has been rewritten. -/
def Stored (g : Geometry) (offset : Nat) (manifest : Manifest) (before after : Flash g) : Prop :=
  Flash.Became before (Flash.patch before.memory offset
    (encode manifest ++ List.replicate (g.eraseSize - Layout.recordSize) Flash.erasedByte)) after

theorem Cleared.changed {after : Flash g} (h : Cleared g offset flash after)
    (hrecord : layout.record? = some offset) :
    Flash.Changed (layout.recordPage g) flash after := by
  refine Flash.Became.changed h ⟨_, Layout.mem_recordPage.2 ⟨offset, hrecord, rfl⟩, ?_⟩
  simp

theorem Stored.changed {after : Flash g} {manifest : Manifest}
    (h : Stored g offset manifest flash after) (hg : layout.Paged g)
    (hrecord : layout.record? = some offset) :
    Flash.Changed (layout.recordPage g) flash after := by
  have hle := hg.record_le_page hrecord
  refine Flash.Became.changed h ⟨_, Layout.mem_recordPage.2 ⟨offset, hrecord, rfl⟩, ?_⟩
  simp only [List.length_append, length_encode, List.length_replicate]
  omega

theorem Cleared.recorded?_eq {after : Flash g} (h : Cleared g offset flash after)
    (hg : layout.Paged g) (hu : layout.Usable g) (hrecord : layout.record? = some offset) :
    layout.recorded? after = none := by
  have hfits := hu.record_fits hrecord
  have hslice := Flash.slice_patch_self h.memory_eq (by rw [List.length_replicate]; exact hfits)
  rw [List.length_replicate] at hslice
  rw [Layout.recorded?_eq hrecord, ← Flash.slice_take after offset (hg.record_le_page hrecord),
    hslice, List.take_replicate, Nat.min_eq_left (hg.record_le_page hrecord)]
  exact decode?_erased

/-- The rewritten page holds the record, and is erased behind it. -/
theorem Stored.slice_eq {after : Flash g} {manifest : Manifest}
    (h : Stored g offset manifest flash after) (hg : layout.Paged g) (hu : layout.Usable g)
    (hrecord : layout.record? = some offset) :
    after.slice offset g.eraseSize = encode manifest
      ++ List.replicate (g.eraseSize - Layout.recordSize) Flash.erasedByte := by
  have hfits := hu.record_fits hrecord
  have hle := hg.record_le_page hrecord
  have hlength : (encode manifest
      ++ List.replicate (g.eraseSize - Layout.recordSize) Flash.erasedByte).length
      = g.eraseSize := by
    rw [List.length_append, length_encode, List.length_replicate]
    omega
  have hslice := Flash.slice_patch_self h.memory_eq (by rw [hlength]; exact hfits)
  rwa [hlength] at hslice

theorem Stored.recorded?_eq {after : Flash g} {manifest : Manifest}
    (h : Stored g offset manifest flash after) (hg : layout.Paged g) (hu : layout.Usable g)
    (hrecord : layout.record? = some offset) : layout.recorded? after = some manifest := by
  rw [Layout.recorded?_eq hrecord, ← Flash.slice_take after offset (hg.record_le_page hrecord),
    h.slice_eq hg hu hrecord, List.take_left' (length_encode manifest)]
  have hwhole := decode?_encode manifest []
  rwa [List.append_nil] at hwhole

/-- A page that takes a record: it lies whole in the part, and a record is a whole number of
writes. -/
structure Page (g : Geometry) (offset : Nat) : Prop where
  record_le : Layout.recordSize ≤ g.eraseSize
  fits : offset + g.eraseSize ≤ g.capacity
  page_dvd : g.eraseSize ∣ offset
  write_dvd : g.writeSize ∣ offset
  write_dvd_record : g.writeSize ∣ Layout.recordSize

theorem page_of_usable (hg : layout.Paged g) (hu : layout.Usable g)
    (hrecord : layout.record? = some offset) : Page g offset where
  record_le := hg.record_le_page hrecord
  fits := hu.record_fits hrecord
  page_dvd := hu.page_dvd_record hrecord
  write_dvd := Nat.dvd_trans hg.write_dvd_page (hu.page_dvd_record hrecord)
  write_dvd_record := hu.write_dvd_record

theorem ensures_clear_at (hglitch : flash.glitch = none) (hpage : g.eraseSize ∣ offset)
    (hfits : offset + g.eraseSize ≤ g.capacity) :
    (clear g offset).Ensures flash
      (fun after => Flash.Kept flash after ∨ Cleared g offset flash after)
      (fun _ after => Cleared g offset flash after)
      (fun fault after => FlashTask.Failing flash fault ∧ Flash.Kept flash after) := by
  have herase := FlashTask.ensures_erase offset (offset + g.eraseSize) hglitch
    (Nat.le_add_right _ _) hfits (Nat.mod_eq_zero_of_dvd hpage)
    (Nat.mod_eq_zero_of_dvd (Nat.dvd_add hpage (Nat.dvd_refl _)))
  rw [Nat.add_sub_cancel_left] at herase
  exact herase

theorem ensures_clear (hglitch : flash.glitch = none) (hu : layout.Usable g)
    (hrecord : layout.record? = some offset) :
    (clear g offset).Ensures flash
      (fun after => Flash.Kept flash after ∨ Cleared g offset flash after)
      (fun _ after => Cleared g offset flash after)
      (fun fault after => FlashTask.Failing flash fault ∧ Flash.Kept flash after) :=
  ensures_clear_at hglitch (hu.page_dvd_record hrecord) (hu.record_fits hrecord)

/-- Rewriting a page that takes a record goes over the erased page. -/
theorem Page.ensures_store (h : Page g offset) (hglitch : flash.glitch = none)
    (manifest : Manifest) :
    (store g offset manifest).Ensures flash
      (fun after => Flash.Kept flash after ∨ Cleared g offset flash after
        ∨ Stored g offset manifest flash after)
      (fun _ after => Stored g offset manifest flash after)
      (fun fault after => FlashTask.Failing flash fault
        ∧ (Flash.Kept flash after ∨ Cleared g offset flash after)) := by
  have hfits := h.fits
  have hle := h.record_le
  refine FlashTask.Ensures.bind ((ensures_clear_at hglitch h.page_dvd hfits).imp ?_
    (fun _ _ h => h) fun _ _ h => ⟨h.1, .inl h.2⟩) ?_
  · rintro after (h | h)
    · exact .inl h
    · exact .inr (.inl h)
  intro _ mid hmid
  -- The erased page takes the record.
  have hblank : mid.slice offset (encode manifest).length
      = List.replicate Layout.recordSize Flash.erasedByte := by
    have hslice := Flash.slice_patch_self hmid.memory_eq
      (by rw [List.length_replicate]; exact hfits)
    rw [List.length_replicate] at hslice
    rw [length_encode, ← Flash.slice_take mid offset hle, hslice, List.take_replicate,
      Nat.min_eq_left hle]
  have hraises : Flash.raises (mid.slice offset (encode manifest).length) (encode manifest)
      = false := by
    rw [hblank]
    exact Flash.raises_replicate _ _
  have hwrite := FlashTask.ensures_write hmid.glitch_eq
    (by rw [length_encode]; omega)
    (Nat.mod_eq_zero_of_dvd h.write_dvd)
    (by rw [length_encode]; exact Nat.mod_eq_zero_of_dvd h.write_dvd_record) hraises
  have hstored : ∀ {after}, Flash.Became mid
      (Flash.patch mid.memory offset (encode manifest)) after →
      Stored g offset manifest flash after := by
    intro after h
    rw [hmid.memory_eq, Flash.patch_patch _ (by simpa using hle) (by simpa using hfits),
      length_encode, List.drop_replicate] at h
    exact hmid.trans h
  refine hwrite.imp ?_ (fun _ _ h => hstored h) ?_
  · rintro after (h | h)
    · exact .inr (.inl (hmid.then_kept h))
    · exact .inr (.inr (hstored h))
  · intro fault after h
    exact ⟨h.1.of_became hmid, .inr (hmid.then_kept h.2)⟩

/-- Rewriting the record page goes over the erased page. -/
theorem ensures_store (hg : layout.Paged g) (hglitch : flash.glitch = none) (hu : layout.Usable g)
    (hrecord : layout.record? = some offset) (manifest : Manifest) :
    (store g offset manifest).Ensures flash
      (fun after => Flash.Kept flash after ∨ Cleared g offset flash after
        ∨ Stored g offset manifest flash after)
      (fun _ after => Stored g offset manifest flash after)
      (fun fault after => FlashTask.Failing flash fault
        ∧ (Flash.Kept flash after ∨ Cleared g offset flash after)) :=
  (page_of_usable hg hu hrecord).ensures_store hglitch manifest

end Record

end Reflash
