/-
  Reflash.Proofs.Install.Layout

  What a usable layout gives: places that begin on pages, lie inside the part and
  apart from one another, and a write size that divides all that is written at once.
  `Flash.Changed` says that a part differs from an earlier one within some extents
  only.
-/
import Reflash.Install.Layout
import Reflash.Proofs.Flash.Pages

namespace Reflash

/-- A part in which a page holds a record and is a whole number of writes, and of which every
byte has a 32 bit address. -/
structure Geometry.Regular (g : Geometry) : Prop where
  record_le_page : Layout.recordSize ≤ g.eraseSize
  page_writes : g.eraseSize % g.writeSize = 0
  capacity_lt : g.capacity < 0x100000000

/-- Pages of a whole number of writes, and of the size of a record at least where one is kept. -/
structure Layout.Paged (g : Geometry) (layout : Layout) : Prop where
  page_writes : g.eraseSize % g.writeSize = 0
  record_le_page : ∀ {offset}, layout.record? = some offset → recordSize ≤ g.eraseSize

theorem Geometry.Regular.paged {g : Geometry} (h : g.Regular) (layout : Layout) :
    layout.Paged g :=
  ⟨h.page_writes, fun _ => h.record_le_page⟩

theorem Layout.Paged.write_dvd_page {g : Geometry} {layout : Layout} (h : layout.Paged g) :
    g.writeSize ∣ g.eraseSize :=
  Nat.dvd_of_mod_eq_zero h.page_writes

/-! ## Usable layouts -/

namespace Layout

variable {g : Geometry} {layout : Layout}

theorem not_overlaps {a b : Extent} : ¬a.Overlaps b ↔ b.last ≤ a.first ∨ a.last ≤ b.first := by
  rw [Extent.Overlaps]
  omega

theorem check_eq_ok (h : layout.Usable g) : layout.check g = .ok () := by
  rw [check, if_pos h]

namespace Usable

theorem write_pos (h : layout.Usable g) : 0 < g.writeSize := by
  apply Nat.pos_of_ne_zero
  intro hzero
  have hblock := h.1.2.1
  rw [hzero] at hblock
  exact absurd hblock (by decide)

theorem page_pos (h : layout.Usable g) : 0 < g.eraseSize := by
  apply Nat.pos_of_ne_zero
  intro hzero
  obtain ⟨hpos, hregion⟩ := h.2.1
  rw [hzero, Nat.mod_zero] at hregion
  exact absurd hregion (Nat.ne_of_gt hpos)

theorem write_dvd_block (h : layout.Usable g) : g.writeSize ∣ Pages.blockSize :=
  Nat.dvd_of_mod_eq_zero h.1.2.1

theorem write_dvd_record (h : layout.Usable g) : g.writeSize ∣ recordSize :=
  Nat.dvd_of_mod_eq_zero h.1.2.2

theorem page_dvd_region (h : layout.Usable g) : g.eraseSize ∣ layout.regionSize :=
  Nat.dvd_of_mod_eq_zero h.2.1.2

theorem staging_mem (g : Geometry) (layout : Layout) :
    ⟨layout.staging, layout.staging + layout.regionSize⟩ ∈ layout.extents g :=
  List.mem_cons_self

theorem active_mem (g : Geometry) (layout : Layout) :
    ⟨layout.active, layout.active + layout.regionSize⟩ ∈ layout.extents g :=
  List.mem_cons_of_mem _ List.mem_cons_self

theorem record_mem {offset : Nat} (hrecord : layout.record? = some offset) :
    ⟨offset, offset + g.eraseSize⟩ ∈ layout.extents g := by
  simp [extents, hrecord]

theorem page_dvd_staging (h : layout.Usable g) : g.eraseSize ∣ layout.staging :=
  Nat.dvd_of_mod_eq_zero (h.2.2.1 _ (staging_mem g layout)).1

theorem page_dvd_active (h : layout.Usable g) : g.eraseSize ∣ layout.active :=
  Nat.dvd_of_mod_eq_zero (h.2.2.1 _ (active_mem g layout)).1

theorem page_dvd_record (h : layout.Usable g) {offset : Nat}
    (hrecord : layout.record? = some offset) : g.eraseSize ∣ offset :=
  Nat.dvd_of_mod_eq_zero (h.2.2.1 _ (record_mem hrecord)).1

theorem staging_fits (h : layout.Usable g) : layout.staging + layout.regionSize ≤ g.capacity :=
  (h.2.2.1 _ (staging_mem g layout)).2

theorem active_fits (h : layout.Usable g) : layout.active + layout.regionSize ≤ g.capacity :=
  (h.2.2.1 _ (active_mem g layout)).2

theorem record_fits (h : layout.Usable g) {offset : Nat}
    (hrecord : layout.record? = some offset) : offset + g.eraseSize ≤ g.capacity :=
  (h.2.2.1 _ (record_mem hrecord)).2

theorem regions_apart (h : layout.Usable g) :
    layout.staging + layout.regionSize ≤ layout.active
      ∨ layout.active + layout.regionSize ≤ layout.staging := by
  have hpair := (List.pairwise_cons.1 h.2.2.2).1 ⟨layout.active, _⟩ List.mem_cons_self
  simp only [not_overlaps] at hpair
  omega

/-- The record page lies apart from both regions. -/
theorem record_apart (h : layout.Usable g) {offset : Nat} (hrecord : layout.record? = some offset) :
    (layout.staging + layout.regionSize ≤ offset ∨ offset + g.eraseSize ≤ layout.staging)
      ∧ (layout.active + layout.regionSize ≤ offset ∨ offset + g.eraseSize ≤ layout.active) := by
  have hpairs := h.2.2.2
  rw [extents, hrecord] at hpairs
  have hstaging := (List.pairwise_cons.1 hpairs).1 ⟨offset, offset + g.eraseSize⟩ (by simp)
  have hactive := (List.pairwise_cons.1 (List.pairwise_cons.1 hpairs).2).1
    ⟨offset, offset + g.eraseSize⟩ (by simp)
  simp only [not_overlaps] at hstaging hactive
  constructor <;> omega

/-- The pages of an image that fits into a region lie inside the region. -/
theorem span_le_region (h : layout.Usable g) {length : Nat}
    (hfits : length ≤ layout.regionSize) : Pages.span g length ≤ layout.regionSize :=
  Pages.span_le h.page_pos h.page_dvd_region hfits

end Usable

/-- The extent of the record page, if there is one. -/
def recordPage (g : Geometry) (layout : Layout) : List Extent :=
  layout.record?.toList.map fun offset => ⟨offset, offset + g.eraseSize⟩

theorem mem_recordPage {extent : Extent} :
    extent ∈ layout.recordPage g
      ↔ ∃ offset, layout.record? = some offset ∧ extent = ⟨offset, offset + g.eraseSize⟩ := by
  rw [recordPage]
  cases layout.record? <;> simp

end Layout

/-! ## Changes within extents -/

namespace Extent

/-- Whether a place lies outside a stretch. -/
def Excludes (extent : Extent) (place : Nat) : Prop :=
  place < extent.first ∨ extent.last ≤ place

/-- Whether a range lies outside a stretch. -/
def Clear (extent : Extent) (offset length : Nat) : Prop :=
  offset + length ≤ extent.first ∨ extent.last ≤ offset

end Extent

namespace Flash

variable {g : Geometry}

/-- `after` differs from `before` within the extents only. Nothing is planned to go wrong with it
that was not planned with `before`, and no write loses bits. -/
structure Changed (extents : List Extent) (before after : Flash g) : Prop where
  byte_eq : ∀ place, (∀ extent ∈ extents, extent.Excludes place) →
    after.memory[place]? = before.memory[place]?
  glitch_eq : after.glitch = none
  fault_eq : before.fault = none → after.fault = none

theorem Kept.changed {before after : Flash g} (h : Kept before after) (extents : List Extent) :
    Changed extents before after :=
  ⟨fun _ _ => by rw [h.memory_eq], h.glitch_eq, h.fault_eq⟩

theorem Became.changed {before after : Flash g} {extents : List Extent} {offset : Nat}
    {bytes : Bytes} (h : Became before (patch before.memory offset bytes) after)
    (hmem : ∃ extent ∈ extents, extent.first ≤ offset ∧ offset + bytes.length ≤ extent.last) :
    Changed extents before after := by
  obtain ⟨extent, hmem, hfirst, hlast⟩ := hmem
  refine ⟨?_, h.glitch_eq, h.fault_eq⟩
  intro place hout
  have hplace := hout extent hmem
  rw [Extent.Excludes] at hplace
  rw [h.memory_eq, getElem?_patch_outside _ (by omega)]

theorem Changed.trans {a b c : Flash g} {extents : List Extent} (h : Changed extents a b)
    (h' : Changed extents b c) : Changed extents a c :=
  ⟨fun place hout => (h'.byte_eq place hout).trans (h.byte_eq place hout), h'.glitch_eq,
    fun hfault => h'.fault_eq (h.fault_eq hfault)⟩

/-- Changes within some extents are changes within extents that cover them. -/
theorem Changed.widen {a b : Flash g} {extents wider : List Extent} (h : Changed extents a b)
    (hcover : ∀ extent ∈ extents, ∃ cover ∈ wider,
      cover.first ≤ extent.first ∧ extent.last ≤ cover.last) : Changed wider a b := by
  refine ⟨?_, h.glitch_eq, h.fault_eq⟩
  intro place hout
  apply h.byte_eq
  intro extent hmem
  obtain ⟨cover, hcover, hfirst, hlast⟩ := hcover extent hmem
  have hplace := hout cover hcover
  rw [Extent.Excludes] at hplace ⊢
  omega

theorem Changed.slice_eq {before after : Flash g} {extents : List Extent} {offset length : Nat}
    (h : Changed extents before after) (hclear : ∀ extent ∈ extents, extent.Clear offset length) :
    after.slice offset length = before.slice offset length := by
  apply slice_congr
  intro place hlow hhigh
  apply h.byte_eq
  intro extent hmem
  have hrange := hclear extent hmem
  rw [Extent.Clear] at hrange
  rw [Extent.Excludes]
  omega

end Flash

/-- What fails after a change was already going to fail before it. -/
theorem FlashTask.Failing.of_changed {g : Geometry} {before after : Flash g} {fault : Fault}
    {extents : List Extent} (h : Failing after fault)
    (hchanged : Flash.Changed extents before after) :
    Failing before fault :=
  ⟨fun hnone => h.1 (hchanged.fault_eq hnone), h.2⟩

end Reflash
