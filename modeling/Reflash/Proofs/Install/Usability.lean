/-
  Reflash.Proofs.Install.Usability

  Which layouts the check accepts. In a workable layout, no byte that a node may come to
  erase or program lies outside the part, and none belongs to two of its places. What
  belongs to the record is told by the requests that storing it makes: the page that is
  erased, and the bytes of the record, wherever they end. The check looks at the page
  alone. So it accepts every workable layout, and no other on parts whose pages hold a
  record; on smaller pages it does not see the bytes of the record behind its page.
-/
import Mathlib.Algebra.GroupWithZero.Nat
import Reflash.Proofs.Install.Footprint
import Reflash.Proofs.Install.Record

namespace Reflash

/-! ## What a procedure may change -/

/-- Whether a request erases or programs the byte at a place. -/
def Request.Alters : Request → Nat → Prop
  | write offset bytes, place => offset ≤ place ∧ place < offset + bytes.length
  | erase first last, place => first ≤ place ∧ place < last
  | read _ _, _ | jump _, _ => False

/-- Whether a procedure comes to make a request, with one answer or another. -/
def Procedure.Poses {α : Type} (request : Request) : Procedure α → Prop
  | done _ => False
  | read offset length next => request = .read offset length
      ∨ ∃ answer, (next answer).Poses request
  | write offset bytes next => request = .write offset bytes
      ∨ ∃ answer, (next answer).Poses request
  | erase first last next => request = .erase first last
      ∨ ∃ answer, (next answer).Poses request
  | jump target next => request = .jump target ∨ next.Poses request

/-- Storing a record erases its page and writes it. -/
theorem Record.poses_store {g : Geometry} {offset : Nat} {manifest : Manifest}
    {request : Request} : (store g offset manifest).run.Poses request
      ↔ request = .erase offset (offset + g.eraseSize)
        ∨ request = .write offset (encode manifest) := by
  constructor
  · rintro (rfl | ⟨answer, hposes⟩)
    · exact .inl rfl
    · cases answer with
      | error error => exact hposes.elim
      | ok _ =>
        obtain rfl | ⟨answer, hnone⟩ := hposes
        · exact .inr rfl
        · exact hnone.elim
  · rintro (rfl | rfl)
    · exact .inl rfl
    · exact .inr ⟨.ok (), .inl rfl⟩

namespace Layout

variable {g : Geometry} {layout : Layout} {place : Nat}

/-! ## Places of a layout -/

inductive Area where
  | staging
  | active
  | record
  deriving DecidableEq

/-- The bytes of an area: those of a region, or those that storing a record erases or writes. -/
def Occupies (g : Geometry) (layout : Layout) : Area → Nat → Prop
  | .staging, place => layout.staging ≤ place ∧ place < layout.staging + layout.regionSize
  | .active, place => layout.active ≤ place ∧ place < layout.active + layout.regionSize
  | .record, place => ∃ offset manifest request, layout.record? = some offset
      ∧ (Record.store g offset manifest).run.Poses request ∧ request.Alters place

theorem occupies_staging_iff : layout.Occupies g .staging place
    ↔ layout.staging ≤ place ∧ place < layout.staging + layout.regionSize := Iff.rfl

theorem occupies_active_iff : layout.Occupies g .active place
    ↔ layout.active ≤ place ∧ place < layout.active + layout.regionSize := Iff.rfl

theorem occupies_record_iff : layout.Occupies g .record place
    ↔ ∃ offset, layout.record? = some offset ∧ offset ≤ place
      ∧ (place < offset + g.eraseSize ∨ place < offset + 32) := by
  constructor
  · rintro ⟨offset, manifest, request, hrecord, hposes, halters⟩
    obtain rfl | rfl := Record.poses_store.1 hposes
    · exact ⟨offset, hrecord, halters.1, .inl halters.2⟩
    · have hend := halters.2
      rw [Record.length_encode] at hend
      exact ⟨offset, hrecord, halters.1, .inr hend⟩
  · rintro ⟨offset, hrecord, hle, hpage | hrest⟩
    · exact ⟨offset, default, _, hrecord, Record.poses_store.2 (.inl rfl), hle, hpage⟩
    · refine ⟨offset, default, _, hrecord, Record.poses_store.2 (.inr rfl), hle, ?_⟩
      rwa [Record.length_encode]

/-- A layout that a node can work in without harm to what lies in it. -/
structure Workable (g : Geometry) (layout : Layout) : Prop where
  write_le : g.writeSize ≤ 16
  write_dvd_block : g.writeSize ∣ 256
  write_dvd_record : g.writeSize ∣ 32
  region_pos : 0 < layout.regionSize
  page_dvd_region : g.eraseSize ∣ layout.regionSize
  page_dvd_staging : g.eraseSize ∣ layout.staging
  page_dvd_active : g.eraseSize ∣ layout.active
  page_dvd_record : ∀ offset, layout.record? = some offset → g.eraseSize ∣ offset
  inside : ∀ area place, layout.Occupies g area place → place < g.capacity
  apart : ∀ area area' place, layout.Occupies g area place → layout.Occupies g area' place →
    area = area'

/-- The bytes of the record behind its page are free and lie in the part. -/
def RecordFits (g : Geometry) (layout : Layout) : Prop :=
  ∀ offset, layout.record? = some offset → ∀ place, offset + g.eraseSize ≤ place →
    place < offset + 32 → place < g.capacity ∧ ¬layout.Occupies g .staging place
      ∧ ¬layout.Occupies g .active place

/-! ## What is workable is accepted -/

/-- Stretches that are not empty and share no place do not overlap. -/
theorem not_overlaps_of_apart {a b : Extent} (ha : a.first < a.last) (hb : b.first < b.last)
    (h : ∀ place, a.first ≤ place ∧ place < a.last → ¬(b.first ≤ place ∧ place < b.last)) :
    ¬a.Overlaps b := by
  rintro ⟨hab, hba⟩
  -- The one that begins later begins inside of the other.
  rcases Nat.le_total a.first b.first with hle | hle
  · exact h b.first ⟨hle, hba⟩ ⟨Nat.le_refl _, hb⟩
  · exact h a.first ⟨Nat.le_refl _, ha⟩ ⟨hle, hab⟩

theorem Workable.page_pos (h : layout.Workable g) : 0 < g.eraseSize :=
  Nat.pos_of_dvd_of_pos h.page_dvd_region h.region_pos

theorem Workable.apart_areas (h : layout.Workable g) {area area' : Area} (hne : area ≠ area')
    (place : Nat) (hplace : layout.Occupies g area place) :
    ¬layout.Occupies g area' place :=
  fun hplace' => hne (h.apart area area' place hplace hplace')

/-- The page of a record belongs to it. -/
theorem occupies_page {offset : Nat} (hrecord : layout.record? = some offset)
    (hplace : offset ≤ place ∧ place < offset + g.eraseSize) :
    layout.Occupies g .record place :=
  occupies_record_iff.2 ⟨offset, hrecord, hplace.1, .inl hplace.2⟩

theorem Workable.extent_inside (h : layout.Workable g) {extent : Extent}
    (hmem : extent ∈ layout.extents g) :
    extent.first % g.eraseSize = 0 ∧ extent.last ≤ g.capacity := by
  have hregion := h.region_pos
  have hpage := h.page_pos
  -- A stretch ends inside the part if its last byte lies there.
  rcases List.mem_cons.1 hmem with rfl | hmem
  · have hlast := h.inside .staging (layout.staging + layout.regionSize - 1) ⟨by omega, by omega⟩
    exact ⟨Nat.mod_eq_zero_of_dvd h.page_dvd_staging, by dsimp only; omega⟩
  rcases List.mem_cons.1 hmem with rfl | hmem
  · have hlast := h.inside .active (layout.active + layout.regionSize - 1) ⟨by omega, by omega⟩
    exact ⟨Nat.mod_eq_zero_of_dvd h.page_dvd_active, by dsimp only; omega⟩
  · obtain ⟨offset, hrecord, rfl⟩ := mem_recordPage.1 hmem
    have hlast := h.inside .record (offset + g.eraseSize - 1)
      (occupies_page hrecord ⟨by omega, by omega⟩)
    exact ⟨Nat.mod_eq_zero_of_dvd (h.page_dvd_record offset hrecord), by dsimp only; omega⟩

theorem Workable.pairwise (h : layout.Workable g) :
    (layout.extents g).Pairwise fun a b => ¬a.Overlaps b := by
  have hregion := h.region_pos
  have hpage := h.page_pos
  have hregions : ¬Extent.Overlaps ⟨layout.staging, layout.staging + layout.regionSize⟩
      ⟨layout.active, layout.active + layout.regionSize⟩ := by
    refine not_overlaps_of_apart (by dsimp only; omega) (by dsimp only; omega) ?_
    exact h.apart_areas (show Area.staging ≠ .active by decide)
  rw [extents]
  cases hrecord : layout.record? with
  | none => simpa using hregions
  | some offset =>
    have hstaging : ¬Extent.Overlaps ⟨layout.staging, layout.staging + layout.regionSize⟩
        ⟨offset, offset + g.eraseSize⟩ := by
      refine not_overlaps_of_apart (by dsimp only; omega) (by dsimp only; omega) ?_
      exact fun place hplace hrest => h.apart_areas (show Area.staging ≠ .record by decide) place
        hplace (occupies_page hrecord hrest)
    have hactive : ¬Extent.Overlaps ⟨layout.active, layout.active + layout.regionSize⟩
        ⟨offset, offset + g.eraseSize⟩ := by
      refine not_overlaps_of_apart (by dsimp only; omega) (by dsimp only; omega) ?_
      exact fun place hplace hrest => h.apart_areas (show Area.active ≠ .record by decide) place
        hplace (occupies_page hrecord hrest)
    simp [hregions, hstaging, hactive]

theorem Workable.usable (h : layout.Workable g) : layout.Usable g :=
  ⟨⟨h.write_le, Nat.mod_eq_zero_of_dvd h.write_dvd_block,
      Nat.mod_eq_zero_of_dvd h.write_dvd_record⟩,
    ⟨h.region_pos, Nat.mod_eq_zero_of_dvd h.page_dvd_region⟩, fun _ => h.extent_inside, h.pairwise⟩

theorem Workable.recordFits (h : layout.Workable g) : layout.RecordFits g := by
  intro offset hrecord place hbehind hlt
  have hplace : layout.Occupies g .record place :=
    occupies_record_iff.2 ⟨offset, hrecord, by omega, .inr hlt⟩
  exact ⟨h.inside .record place hplace, h.apart_areas (by decide) place hplace,
    h.apart_areas (by decide) place hplace⟩

/-! ## What is accepted is workable -/

theorem Usable.staging_spares_active (h : layout.Usable g)
    (hplace : layout.Occupies g .staging place) : ¬layout.Occupies g .active place := by
  have hregions := h.regions_apart
  rw [occupies_staging_iff] at hplace
  rw [occupies_active_iff]
  omega

/-- The check sees to the page of the record, and there is no more to it if it fits. -/
theorem Usable.record_spares (h : layout.Usable g) (hfits : layout.RecordFits g)
    (hplace : layout.Occupies g .record place) :
    place < g.capacity ∧ ¬layout.Occupies g .staging place
      ∧ ¬layout.Occupies g .active place := by
  obtain ⟨offset, hrecord, hle, hend⟩ := occupies_record_iff.1 hplace
  by_cases hpage : place < offset + g.eraseSize
  · -- In its page the record is where the check has looked.
    have hinside := h.record_fits hrecord
    have hregions := h.record_apart hrecord
    rw [occupies_staging_iff, occupies_active_iff]
    omega
  · exact hfits offset hrecord place (by omega) (by omega)

theorem Usable.workable (h : layout.Usable g) (hfits : layout.RecordFits g) :
    layout.Workable g where
  write_le := h.1.1
  write_dvd_block := h.write_dvd_block
  write_dvd_record := h.write_dvd_record
  region_pos := h.2.1.1
  page_dvd_region := h.page_dvd_region
  page_dvd_staging := h.page_dvd_staging
  page_dvd_active := h.page_dvd_active
  page_dvd_record := fun _ => h.page_dvd_record
  inside := by
    intro area place hplace
    cases area with
    | staging => exact Nat.lt_of_lt_of_le hplace.2 h.staging_fits
    | active => exact Nat.lt_of_lt_of_le hplace.2 h.active_fits
    | record => exact (h.record_spares hfits hplace).1
  apart := by
    -- Of two different areas, the one that comes first here spares the other.
    intro area area' place hplace hplace'
    cases area with
    | staging =>
      cases area' with
      | staging => rfl
      | active => exact absurd hplace' (h.staging_spares_active hplace)
      | record => exact absurd hplace (h.record_spares hfits hplace').2.1
    | active =>
      cases area' with
      | staging => exact absurd hplace (h.staging_spares_active hplace')
      | active => rfl
      | record => exact absurd hplace (h.record_spares hfits hplace').2.2
    | record =>
      cases area' with
      | staging => exact absurd hplace' (h.record_spares hfits hplace).2.1
      | active => exact absurd hplace' (h.record_spares hfits hplace).2.2
      | record => rfl

theorem check_eq_ok_iff : layout.check g = .ok () ↔ layout.Usable g := by
  rw [check]
  by_cases h : layout.Usable g
  · simp [h]
  · simp [h]

/-- Where a page holds a record, there is nothing of the record behind its page. -/
theorem recordFits_of_page (h : layout.record? = none ∨ 32 ≤ g.eraseSize) :
    layout.RecordFits g := by
  intro offset hrecord place hbehind hlt
  rcases h with hnone | hpage
  · rw [hnone] at hrecord
    cases hrecord
  · omega

/-- The check accepts a layout if, and on parts whose pages hold a record only if, it is workable:
the write size divides all that is written in one piece, all places begin on pages, and of the bytes
that a node may erase or program none lies outside the part or belongs to two of its places. On
smaller pages that goes for the accepted layouts that leave room for the record behind its page.
Offsets and sizes of 32 bits never add up to more than 64. -/
theorem check_accepts_workable (g : Geometry) (layout : Layout) :
    (layout.Workable g ↔ layout.check g = .ok () ∧ layout.RecordFits g)
      ∧ (layout.record? = none ∨ 32 ≤ g.eraseSize → (layout.check g = .ok () ↔ layout.Workable g))
      ∧ (layout.check g ≠ .ok () → layout.check g = .error .invalidArgs)
      ∧ (layout.staging < 2 ^ 32 → layout.active < 2 ^ 32 → layout.regionSize < 2 ^ 32 →
        (∀ offset, layout.record? = some offset → offset < 2 ^ 32) →
          0 < layout.regionSize → layout.regionSize % g.eraseSize = 0 →
            ∀ extent ∈ layout.extents g, extent.last < 2 ^ 64) := by
  have hworkable : layout.Workable g ↔ layout.check g = .ok () ∧ layout.RecordFits g := by
    rw [check_eq_ok_iff]
    exact ⟨fun h => ⟨h.usable, h.recordFits⟩, fun h => h.1.workable h.2⟩
  refine ⟨hworkable, fun hpage => ?_, fun hrefused => ?_, ?_⟩
  · rw [hworkable, and_iff_left (recordFits_of_page hpage)]
  · rw [check, if_neg (mt check_eq_ok hrefused)]
  · intro hstaging hactive hregion hrecords hpos hwhole extent hmem
    -- A page that divides the region is no larger than it.
    have hpage := Nat.le_of_dvd hpos (Nat.dvd_of_mod_eq_zero hwhole)
    rcases List.mem_cons.1 hmem with rfl | hmem
    · dsimp only
      omega
    rcases List.mem_cons.1 hmem with rfl | hmem
    · dsimp only
      omega
    · obtain ⟨offset, hrecord, rfl⟩ := mem_recordPage.1 hmem
      have hoffset := hrecords offset hrecord
      dsimp only
      omega

/-- A page of 32 bytes is just enough. -/
theorem check_accepts_workable_pocket :
    32 ≤ Pocket.geometry.eraseSize ∧ Pocket.layout.check Pocket.geometry = .ok ()
      ∧ Pocket.layout.Workable Pocket.geometry := by
  have hpage : 32 ≤ Pocket.geometry.eraseSize := by decide
  have hchecked := check_eq_ok Pocket.layout_usable
  obtain ⟨-, haccepts, -⟩ := check_accepts_workable Pocket.geometry Pocket.layout
  exact ⟨hpage, hchecked, (haccepts (.inr hpage)).1 hchecked⟩

end Layout

/-! ## Smaller pages -/

namespace Cramped

/-- A page holds half of a record. -/
def geometry : Geometry where
  writeSize := 4
  eraseSize := 16
  capacity := 64

def layout : Layout where
  staging := 16
  active := 32
  regionSize := 16
  record? := some 0

/-- The layout is accepted, and storing a record writes into the staging region. -/
theorem record_spills :
    0 < geometry.writeSize ∧ geometry.writeSize ∣ geometry.eraseSize
      ∧ layout.check geometry = .ok () ∧ layout.Occupies geometry .record 16
      ∧ layout.Occupies geometry .staging 16 ∧ ¬layout.Workable geometry := by
  have hrecord : layout.Occupies geometry .record 16 :=
    Layout.occupies_record_iff.2 ⟨0, rfl, by decide, .inr (by decide)⟩
  have hstaging : layout.Occupies geometry .staging 16 :=
    Layout.occupies_staging_iff.2 (by decide)
  refine ⟨by decide, by decide, Layout.check_eq_ok (by decide), hrecord, hstaging,
    fun hworkable => ?_⟩
  cases hworkable.apart .record .staging 16 hrecord hstaging

end Cramped

end Reflash
