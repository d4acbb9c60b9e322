/-
  Reflash.Proofs.Checksum.Agreement

  All ways to take a checksum give the same: of data in one piece or cut into pieces
  anywhere, of an image in blocks before it is announced, and of what a flash part
  holds, read back block by block. It is the checksum that the standard defines, of
  the data with zeros behind it up to the end of its last word.
-/
import Reflash.Proofs.Checksum
import Reflash.Proofs.Checksum.Remainder
import Reflash.Proofs.Flash.Footprint

namespace Reflash

/-! ## Reading back -/

/-- A read does not look at a write that is planned to lose bits. -/
theorem Flash.read_with_glitch {g : Geometry} (flash : Flash g) (glitch : Option Glitch)
    (offset length : Nat) : ({ flash with glitch } : Flash g).read offset length
      = ((flash.read offset length).1, { (flash.read offset length).2 with glitch }) := by
  have htake : ({ flash with glitch } : Flash g).takeFault .read
      = ((flash.takeFault .read).1, { (flash.takeFault .read).2 with glitch }) := by
    simp only [takeFault]
    split
    · rfl
    · split
      · rfl
      · split <;> rfl
  simp only [read]
  split
  · rfl
  · rw [htake]
    dsimp only
    split <;> rfl

/-- Nor does a procedure that only reads. -/
theorem Procedure.Asks.run_with_glitch {α : Type} {g : Geometry} {readable : List Extent}
    {result : α → Prop} {procedure : Procedure α}
    (h : procedure.Asks (Request.Within readable []) result) (device : Device g)
    (glitch : Option Glitch) :
    (procedure.run { device with flash := { device.flash with glitch } }).1
      = (procedure.run device).1 := by
  induction procedure generalizing device with
  | done a => rfl
  | read offset length next ih =>
    simp only [run, Flash.read_with_glitch]
    exact ih _ (h.after_read device.flash)
      { device with flash := (device.flash.read offset length).2 }
  -- No range may be written or erased.
  | write offset bytes next ih =>
    obtain ⟨extent, hmem, -⟩ := h.1
    cases hmem
  | erase first last next ih =>
    obtain ⟨-, extent, hmem, -⟩ := h.1
    cases hmem
  | jump target next ih =>
    exact ih h.2 { device with jumper := (device.jumper.jump target).2 }

/-- The checksum of what a part holds is that of the bytes, unless a read was planned to fail. -/
theorem Pages.run_crc {g : Geometry} (device : Device g) {offset length : Nat}
    (hfit : offset + length ≤ g.capacity) :
    ((crc offset length).run.run device).1 = .ok (Crc32.padded (device.flash.slice offset length))
      ∨ device.flash.fault ≠ none ∧ ∃ cause,
        ((crc offset length).run.run device).1 = .error (.flash cause) := by
  have hasks : (crc offset length).run.Asks
      (Request.Within [⟨offset, offset + length⟩] []) _ :=
    crc_asks (List.mem_singleton_self _) ⟨Nat.le_refl _, Nat.le_refl _⟩
  rw [← hasks.run_with_glitch device none]
  have hreads : (crc offset length).Reads { device.flash with glitch := none } _ :=
    crc_reads offset length rfl hfit
  obtain ⟨-, hresult⟩ := (hreads device.jumper).2
  cases hrun : ((crc offset length).run.run
      { device with flash := { device.flash with glitch := none } }).1 with
  | ok crc =>
    rw [hrun] at hresult
    exact .inl (congrArg Except.ok hresult.1)
  | error fault =>
    rw [hrun] at hresult
    obtain ⟨⟨hfault, hcause⟩, -⟩ := hresult
    refine .inr ⟨hfault, ?_⟩
    rcases hcause with rfl | rfl | rfl <;> exact ⟨_, rfl⟩

/-! ## All ways -/

namespace Crc32

/-- Whatever way a checksum is taken, it is the one that the standard defines for the data with
zeros behind it up to the end of its last word: from pieces cut anywhere, some of them empty, from
the whole, from as many words as the data needs, from an image in blocks, or from a part that holds
the data anywhere, of which nothing but a read that was planned to fail keeps it. Taken from any
number of words it is that of the words' bytes, zeros where the data has none. -/
theorem checksums_agree :
    (∀ data : Bytes, ∃ zeros < 4, (data.length + zeros) % 4 = 0 ∧ ∃ crc,
      (∀ other, IsoHdlc (data ++ List.replicate zeros 0) other ↔ other = crc)
      ∧ (∀ pieces : List Bytes, pieces.flatten = data → ofPieces pieces = crc)
      ∧ padded data = crc ∧ ofWords data ((data.length + 3) / 4) = crc ∧ ofImage data = crc
      ∧ ∀ (g : Geometry) (device : Device g) (offset : Nat),
        offset + data.length ≤ g.capacity → device.flash.slice offset data.length = data →
          ((Pages.crc offset data.length).run.run device).1 = .ok crc
          ∨ device.flash.fault ≠ none ∧ ∃ cause,
            ((Pages.crc offset data.length).run.run device).1 = .error (.flash cause))
    ∧ ∀ (data : Bytes) (count : Nat), ∀ other,
      IsoHdlc ((data ++ List.replicate (4 * count) 0).take (4 * count)) other
        ↔ other = ofWords data count := by
  refine ⟨fun data => ?_, fun data count other => ?_⟩
  · have hwords : wordsFor data.length = (data.length + 3) / 4 := rfl
    refine ⟨4 * wordsFor data.length - data.length, by omega, by omega, padded data,
      fun other => ?_, ?_, rfl, rfl, ofImage_eq_padded data, ?_⟩
    · rw [isoHdlc_iff, padded_eq]
    · rintro pieces rfl
      exact ofPieces_eq_padded pieces
    · intro g device offset hfit hholds
      have hcrc := Pages.run_crc device hfit
      rwa [hholds] at hcrc
  · have hfilled : (data ++ List.replicate (4 * count) 0).take (4 * count)
        = data.padTo (4 * count) := by
      rw [List.take_append, List.take_replicate, Bytes.padTo]
      congr 2
      omega
    rw [isoHdlc_iff, ofWords_eq, hfilled]

/-- Five bytes in a small part that is blank otherwise, across the border of a word. -/
def stored : Device ⟨4, 64, 128⟩ where
  flash := ({} : Flash ⟨4, 64, 128⟩).preload 61 [1, 2, 3, 4, 5]

/-- Pieces, one of them empty, and what the part holds come to the checksum of two words. -/
theorem checksums_agree_stored : ∃ crc, IsoHdlc [1, 2, 3, 4, 5, 0, 0, 0] crc
    ∧ ofPieces [[1, 2], [], [3, 4, 5]] = crc ∧ ofWords [1, 2, 3, 4, 5] 2 = crc
    ∧ ((Pages.crc 61 5).run.run stored).1 = .ok crc := by
  obtain ⟨zeros, hfew, hwhole, crc, hcrc, hpieces, -, hwords, -, hpart⟩ :=
    checksums_agree.1 [1, 2, 3, 4, 5]
  obtain rfl : zeros = 3 := by
    rw [show ([1, 2, 3, 4, 5] : Bytes).length = 5 from rfl] at hwhole
    omega
  have hholds : stored.flash.slice 61 5 = [1, 2, 3, 4, 5] := by decide +kernel
  refine ⟨crc, (hcrc crc).2 rfl, hpieces _ rfl, hwords, ?_⟩
  exact (hpart _ stored 61 (by decide) hholds).resolve_right fun hfault => hfault.1 rfl

end Crc32

end Reflash
