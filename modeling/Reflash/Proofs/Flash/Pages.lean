/-
  Reflash.Proofs.Flash.Pages

  Work on ranges of flash does what it says for every page size and every length:
  checksums and blank checks look at exactly the range, and a copy of pages leaves
  the destination equal to the source and everything else as it was. A copy that was
  stopped has copied a beginning of the range, up to a page of which the rest is
  erased.
-/
import Reflash.Flash.Pages
import Reflash.Proofs.Checksum
import Reflash.Proofs.Flash.Trace

namespace Reflash

namespace Pages

variable {g : Geometry} {flash : Flash g}

/-! ## Cutting a range -/

theorem cut_of_le {size first last : Nat} (h : last ≤ first) : cut size first last = [] := by
  rw [cut, dif_neg (by omega)]

theorem cut_of_lt {size first last : Nat} (h : first < last) (hsize : 0 < size) :
    cut size first last
      = (first, min size (last - first)) :: cut size (first + size) last := by
  rw [cut, dif_pos ⟨h, hsize⟩]

/-! ## Whole pages -/

theorem dvd_span (g : Geometry) (length : Nat) : g.eraseSize ∣ span g length :=
  Nat.dvd_mul_left _ _

theorem le_span (hpage : 0 < g.eraseSize) (length : Nat) : length ≤ span g length := by
  have hdiv := Nat.div_add_mod (length + g.eraseSize - 1) g.eraseSize
  have hmod := Nat.mod_lt (length + g.eraseSize - 1) hpage
  have hspan : span g length
      = g.eraseSize * ((length + g.eraseSize - 1) / g.eraseSize) := Nat.mul_comm _ _
  omega

/-- The pages that hold `length` bytes end where any run of whole pages that holds them does, or
before. -/
theorem span_le {length last : Nat} (hpage : 0 < g.eraseSize) (hlast : g.eraseSize ∣ last)
    (h : length ≤ last) : span g length ≤ last := by
  obtain ⟨pages, rfl⟩ := hlast
  rw [span]
  rw [Nat.mul_comm g.eraseSize pages] at h ⊢
  apply Nat.mul_le_mul_right
  rw [Nat.div_le_iff_le_mul_add_pred hpage, Nat.mul_comm]
  omega

/-! ## Checksums -/

theorem digest_reads {size : Nat} (hsize : 0 < size) (offset : Nat) {first last : Nat}
    (hle : first ≤ last) (hfit : offset + last ≤ g.capacity) (hg : flash.glitch = none)
    (digest : Crc32.Digest) :
    FlashTask.Reads
      ((cut size first last).foldlM (fun (digest : Crc32.Digest) (at', size) => do
        let bytes ← FlashTask.read (offset + at') size
        pure (digest.update bytes)) digest)
      flash (digest.update (flash.slice (offset + first) (last - first))) := by
  induction hn : last - first using Nat.strongRecOn generalizing first flash digest with
  | ind n ih =>
    by_cases hlt : first < last
    · -- One piece is read and taken into the digest; the induction is on what is left behind it.
      rw [cut_of_lt hlt hsize, List.foldlM_cons]
      have hread := FlashTask.read_reads (offset + first) (min size (last - first)) hg
        (by omega)
      have hpiece : FlashTask.Reads
          (do
            let bytes ← FlashTask.read (offset + first) (min size (last - first))
            pure (digest.update bytes))
          flash (digest.update (flash.slice (offset + first) (min size (last - first)))) :=
        hread.bind fun flash' hkept => FlashTask.reads_pure hkept.glitch_eq _
      refine hpiece.bind ?_
      intro flash' hkept
      by_cases hmore : first + size ≤ last
      · have hrest := ih (last - (first + size)) (by omega) hmore hkept.glitch_eq
          (digest.update (flash.slice (offset + first) (min size (last - first)))) rfl
        rw [hkept.slice_eq, Crc32.Digest.update_append, ← Nat.add_assoc,
          Nat.min_eq_left (by omega), ← Flash.slice_append _ (by omega),
          show size + (last - (first + size)) = n from by omega] at hrest
        rw [Nat.min_eq_left (by omega)]
        exact hrest
      · rw [cut_of_le (by omega), Nat.min_eq_right (by omega), hn]
        exact FlashTask.reads_pure hkept.glitch_eq _
    · rw [cut_of_le (by omega), show n = 0 from by omega, Flash.slice_zero]
      exact FlashTask.reads_pure hg _

/-- The checksum of a range is that of the bytes in it. -/
theorem crc_reads (offset length : Nat) (hg : flash.glitch = none)
    (hfit : offset + length ≤ g.capacity) :
    (crc offset length).Reads flash (Crc32.padded (flash.slice offset length)) := by
  have hdigest := digest_reads (show 0 < blockSize by decide) offset (Nat.zero_le length)
    hfit hg {}
  rw [← Crc32.Digest.finish_update]
  exact hdigest.bind fun flash' hkept => FlashTask.reads_pure hkept.glitch_eq _

/-! ## Blank checks -/

theorem not_any_ne_erased (bytes : Bytes) :
    (!bytes.any (· != Flash.erasedByte)) = bytes.all (· == Flash.erasedByte) := by
  rw [List.all_eq_not_any_not]
  rfl

theorem arePiecesBlank_reads {size : Nat} (hsize : 0 < size) (offset : Nat) {first last : Nat}
    (hle : first ≤ last) (hfit : offset + last ≤ g.capacity) (hg : flash.glitch = none) :
    (arePiecesBlank offset (cut size first last)).Reads flash
      ((flash.slice (offset + first) (last - first)).all (· == Flash.erasedByte)) := by
  induction hn : last - first using Nat.strongRecOn generalizing first flash with
  | ind n ih =>
    by_cases hlt : first < last
    · rw [cut_of_lt hlt hsize, arePiecesBlank]
      have hread := FlashTask.read_reads (offset + first) (min size (last - first)) hg
        (by omega)
      refine hread.bind ?_
      intro flash' hkept
      -- What the whole range holds is what the first piece holds, and then the rest.
      have hsplit : (flash.slice (offset + first) n).all (· == Flash.erasedByte)
          = (!(flash.slice (offset + first) (min size (last - first))).any
              (· != Flash.erasedByte)
            && (flash.slice (offset + first + min size (last - first))
              (n - min size (last - first))).all (· == Flash.erasedByte)) := by
        rw [not_any_ne_erased, ← List.all_append, ← Flash.slice_append _ (by omega),
          show min size (last - first) + (n - min size (last - first)) = n from by omega]
      rw [hsplit]
      by_cases hany : (flash.slice (offset + first) (min size (last - first))).any
          (· != Flash.erasedByte) = true
      · rw [if_pos hany, hany, Bool.not_true, Bool.false_and]
        exact FlashTask.reads_pure hkept.glitch_eq _
      · rw [if_neg hany, Bool.eq_false_iff.2 hany, Bool.not_false, Bool.true_and]
        by_cases hmore : first + size ≤ last
        · have hrest := ih (last - (first + size)) (by omega) hmore hkept.glitch_eq rfl
          rw [hkept.slice_eq, ← Nat.add_assoc] at hrest
          rw [Nat.min_eq_left (by omega), show n - size = last - (first + size) from by omega]
          exact hrest
        · rw [cut_of_le (by omega), Nat.min_eq_right (by omega), hn, Nat.sub_self,
            Flash.slice_zero]
          exact FlashTask.reads_pure hkept.glitch_eq _
    · rw [cut_of_le (by omega), show n = 0 from by omega, Flash.slice_zero]
      exact FlashTask.reads_pure hg _

/-- A range is found blank exactly when all its bytes are erased. -/
theorem isBlank_reads (offset length : Nat) (hg : flash.glitch = none)
    (hfit : offset + length ≤ g.capacity) :
    (isBlank offset length).Reads flash
      ((flash.slice offset length).all (· == Flash.erasedByte)) :=
  arePiecesBlank_reads (show 0 < blockSize by decide) offset (Nat.zero_le length) hfit hg

/-! ## Copying -/

/-- `after` is `flash` with `n` bytes copied from `source` to `destination`, and `erased` bytes
behind them erased. -/
def Copied (flash : Flash g) (source destination n erased : Nat) (after : Flash g) : Prop :=
  Flash.Became flash (Flash.patch flash.memory destination
    (flash.slice source n ++ List.replicate erased Flash.erasedByte)) after

theorem copied_zero {source destination : Nat} {after : Flash g} :
    Copied flash source destination 0 0 after ↔ Flash.Kept flash after := by
  rw [Copied, Flash.slice_zero]
  rfl

theorem copied_erased {source destination erased : Nat} {after : Flash g} :
    Copied flash source destination 0 erased after
      ↔ Flash.Became flash (Flash.patch flash.memory destination
        (List.replicate erased Flash.erasedByte)) after := by
  rw [Copied, Flash.slice_zero, List.nil_append]

/-- What lies apart from the destination is as it was. -/
theorem Copied.slice_apart {source destination n erased offset length : Nat} {after : Flash g}
    (h : Copied flash source destination n erased after) (hsource : source + n ≤ g.capacity)
    (hapart : offset + length ≤ destination ∨ destination + (n + erased) ≤ offset) :
    after.slice offset length = flash.slice offset length := by
  refine Flash.slice_patch_apart h.memory_eq ?_
  rw [List.length_append, List.length_replicate, Flash.length_slice hsource]
  exact hapart

/-- What has been copied reads as its source did. -/
theorem Copied.slice_self {source destination n : Nat} {after : Flash g}
    (h : Copied flash source destination n 0 after) (hsource : source + n ≤ g.capacity)
    (hfit : destination + n ≤ g.capacity) :
    after.slice destination n = flash.slice source n := by
  have hlength : (flash.slice source n).length = n := Flash.length_slice hsource
  have hmemory := h.memory_eq
  rw [List.replicate_zero, List.append_nil] at hmemory
  have hself := Flash.slice_patch_self hmemory (by rw [hlength]; exact hfit)
  rwa [hlength] at hself

/-- Going on behind what has been copied is having copied more. -/
theorem Copied.append {source destination n m erased : Nat} {mid after : Flash g}
    (h : Copied flash source destination n 0 mid)
    (h' : Copied mid (source + n) (destination + n) m erased after)
    (hsource : source + (n + m) ≤ g.capacity)
    (hapart : source + (n + m) ≤ destination ∨ destination + n ≤ source) :
    Copied flash source destination (n + m) erased after := by
  have hlen : (flash.slice source n).length = n := Flash.length_slice (by omega)
  have hmid : mid.memory = Flash.patch flash.memory destination (flash.slice source n) := by
    rw [h.memory_eq, List.replicate_zero, List.append_nil]
  have hboth := h.trans h'
  rw [h.slice_apart (by omega) (by omega), hmid] at hboth
  rw [Copied, Flash.slice_append _ (by omega), List.append_assoc, Flash.patch_append, hlen]
  exact hboth

/-- Copying into a page that has just been erased. -/
theorem Copied.after_erasing {source destination n erased : Nat} {mid after : Flash g}
    (h : Copied flash source destination 0 erased mid)
    (h' : Copied mid source destination n 0 after) (hn : n ≤ erased)
    (hsource : source + n ≤ g.capacity) (hfit : destination + erased ≤ g.capacity)
    (hapart : source + n ≤ destination ∨ destination + erased ≤ source) :
    Copied flash source destination n (erased - n) after := by
  have hlen : (flash.slice source n).length = n := Flash.length_slice hsource
  have hboth := h.trans h'
  rw [h.slice_apart (by omega) (by omega), List.replicate_zero, List.append_nil,
    (copied_erased.1 h).memory_eq, Flash.patch_patch _ (by simpa [hlen] using hn)
      (by simpa using hfit), hlen, List.drop_replicate] at hboth
  exact hboth

/-- Copying one piece into erased flash, and going on. -/
theorem ensures_copyPiece {source destination n : Nat} {next : FlashTask Unit}
    {during : Flash g → Prop} {ok : Unit → Flash g → Prop} {err : Fault → Flash g → Prop}
    (hg : flash.glitch = none) (hfit : destination + n ≤ g.capacity)
    (hsource : source + n ≤ g.capacity) (hstart : g.writeSize ∣ destination)
    (hwhole : g.writeSize ∣ n)
    (hblank : flash.slice destination n = List.replicate n Flash.erasedByte)
    (hkept : ∀ after, Flash.Kept flash after → during after)
    (hfailing : ∀ fault after, FlashTask.Failing flash fault → Flash.Kept flash after →
      err fault after)
    (hcopied : ∀ after, Copied flash source destination n 0 after →
      during after ∧ next.Ensures after during ok err) :
    FlashTask.Ensures (do
      let bytes ← FlashTask.read source n
      FlashTask.write destination bytes
      next) flash during ok err := by
  have hlen : (flash.slice source n).length = n := Flash.length_slice hsource
  have hread := FlashTask.read_reads source n hg hsource
  refine (FlashTask.Ensures.imp hread hkept (fun _ _ h => h)
    fun fault after h => hfailing fault after h.1 h.2).bind ?_
  rintro _ mid ⟨rfl, hmid⟩
  -- Any byte can be programmed over an erased one.
  have hraises : Flash.raises (mid.slice destination (flash.slice source n).length)
      (flash.slice source n) = false := by
    rw [hlen, hmid.slice_eq, hblank]
    exact Flash.raises_replicate _ _
  have hwrite := FlashTask.ensures_write hmid.glitch_eq (by omega)
    (Nat.mod_eq_zero_of_dvd hstart) (Nat.mod_eq_zero_of_dvd (hlen.symm ▸ hwhole)) hraises
  have hof : ∀ {after}, Flash.Became mid
      (Flash.patch mid.memory destination (flash.slice source n)) after →
      Copied flash source destination n 0 after := by
    intro after h
    rw [Copied, List.replicate_zero, List.append_nil, ← hmid.memory_eq]
    exact hmid.trans h
  refine (hwrite.imp ?_ (fun _ _ h => hof h) fun fault after h =>
    hfailing fault after (h.1.of_became hmid) (hmid.then_kept h.2)).bind ?_
  · rintro after (h | h)
    · exact hkept after (hmid.then_kept h)
    · exact (hcopied after (hof h)).1
  · intro _ after h
    exact (hcopied after h).2

/-- Copying into erased flash leaves, after every request, a beginning of the range copied, and
at the end all of it. If it is stopped, whole pieces have been copied. -/
theorem ensures_copyPieces (source destination : Nat) {size : Nat} (hsize : 0 < size)
    (hwhole : g.writeSize ∣ size) {first last : Nat} (hle : first ≤ last)
    (hlength : g.writeSize ∣ last - first) (hstart : g.writeSize ∣ destination + first)
    (hfit : destination + last ≤ g.capacity) (hsource : source + last ≤ g.capacity)
    (hapart : source + last ≤ destination + first ∨ destination + last ≤ source + first)
    (hg : flash.glitch = none)
    (hblank : flash.slice (destination + first) (last - first)
      = List.replicate (last - first) Flash.erasedByte) :
    (copyPieces source destination (cut size first last)).Ensures flash
      (fun after => ∃ n ≤ last - first,
        Copied flash (source + first) (destination + first) n 0 after)
      (fun _ after => Copied flash (source + first) (destination + first) (last - first) 0 after)
      (fun fault after => FlashTask.Failing flash fault ∧
        ∃ blocks, blocks * size < last - first
          ∧ Copied flash (source + first) (destination + first) (blocks * size) 0 after) := by
  induction hn : last - first using Nat.strongRecOn generalizing first flash with
  | ind n ih =>
    by_cases hlt : first < last
    · obtain ⟨k, hk⟩ : ∃ k, k = min size (last - first) := ⟨_, rfl⟩
      have hkwhole : g.writeSize ∣ k := by
        rcases Nat.le_total size (last - first) with h | h
        · rw [hk, Nat.min_eq_left h]; exact hwhole
        · rw [hk, Nat.min_eq_right h]; exact hlength
      -- The destination is erased where the piece goes, and behind that too.
      have hblanks : flash.slice (destination + first) k = List.replicate k Flash.erasedByte
          ∧ flash.slice (destination + first + k) (n - k)
            = List.replicate (n - k) Flash.erasedByte := by
        rw [hn, show n = k + (n - k) from by omega, Flash.slice_append _ (by omega),
          ← List.replicate_append_replicate] at hblank
        exact List.append_inj hblank
          (by rw [Flash.length_slice (by omega), List.length_replicate])
      rw [cut_of_lt hlt hsize, ← hk, copyPieces]
      refine ensures_copyPiece hg (by omega) (by omega) hstart hkwhole hblanks.1 ?_ ?_ ?_
      · intro after hkept
        exact ⟨0, Nat.zero_le _, copied_zero.2 hkept⟩
      · intro fault after hfailing hkept
        refine ⟨hfailing, 0, by omega, ?_⟩
        rw [Nat.zero_mul]
        exact copied_zero.2 hkept
      intro mid hcopied
      refine ⟨⟨k, by omega, hcopied⟩, ?_⟩
      by_cases hmore : first + size ≤ last
      · -- What follows starts from `mid`, where the rest of the destination is still erased.
        obtain rfl : k = size := by omega
        have hblank' : mid.slice (destination + (first + k)) (last - (first + k))
            = List.replicate (last - (first + k)) Flash.erasedByte := by
          rw [hcopied.slice_apart (by omega) (by omega), ← Nat.add_assoc,
            show last - (first + k) = n - k from by omega]
          exact hblanks.2
        have hrest := ih (last - (first + k)) (by omega) hmore
          (by rw [← Nat.sub_sub]; exact Nat.dvd_sub hlength hkwhole)
          (by rw [← Nat.add_assoc]; exact Nat.dvd_add hstart hkwhole)
          (by omega) hcopied.glitch_eq hblank' rfl
        have hgoes : ∀ m ≤ last - (first + k), ∀ {after},
            Copied mid (source + (first + k)) (destination + (first + k)) m 0 after →
            Copied flash (source + first) (destination + first) (k + m) 0 after := by
          intro m hm after h
          rw [← Nat.add_assoc, ← Nat.add_assoc] at h
          exact hcopied.append h (by omega) (by omega)
        refine hrest.imp ?_ ?_ ?_
        · rintro after ⟨m, hm, hstep⟩
          exact ⟨k + m, by omega, hgoes m hm hstep⟩
        · intro _ after hstep
          have := hgoes _ (Nat.le_refl _) hstep
          rwa [show k + (last - (first + k)) = n from by omega] at this
        · rintro fault after ⟨hfailing, blocks, hm, hstep⟩
          have hbehind := hgoes (blocks * k) (Nat.le_of_lt hm) hstep
          rw [Nat.add_comm k, ← Nat.succ_mul] at hbehind
          exact ⟨hfailing.of_became hcopied, blocks + 1, by rw [Nat.succ_mul]; omega, hbehind⟩
      · rw [cut_of_le (by omega), copyPieces]
        apply FlashTask.ensures_pure
        rwa [show k = n from by omega] at hcopied
    · rw [cut_of_le (by omega), copyPieces]
      apply FlashTask.ensures_pure
      rw [show n = 0 from by omega]
      exact copied_zero.2 (Flash.Kept.refl hg)

/-- A copy of pages under way: some of the range is copied, and the rest of the page that this
ends in, if it does not end with a page, is erased. -/
def UnderWay (flash : Flash g) (source destination total : Nat) (after : Flash g) : Prop :=
  ∃ n erased, g.eraseSize ∣ n + erased ∧ erased ≤ g.eraseSize ∧ n + erased ≤ total
    ∧ Copied flash source destination n erased after

theorem UnderWay.of_kept {source destination total : Nat} {after : Flash g}
    (h : Flash.Kept flash after) : UnderWay flash source destination total after :=
  ⟨0, 0, Nat.dvd_zero _, Nat.zero_le _, Nat.zero_le _, copied_zero.2 h⟩

/-- A copy of pages that was stopped: whole pages are copied, and of the page behind them either
nothing has been done, or it was erased and whole blocks of it are copied. -/
def Halted (flash : Flash g) (source destination total : Nat) (after : Flash g) : Prop :=
  ∃ pages blocks erased, (pages + 1) * g.eraseSize ≤ total
    ∧ (blocks = 0 ∧ erased = 0 ∨ 0 < erased ∧ blocks * blockSize + erased = g.eraseSize)
    ∧ Copied flash source destination (pages * g.eraseSize + blocks * blockSize) erased after

theorem Halted.underWay {source destination total : Nat} {after : Flash g}
    (h : Halted flash source destination total after) :
    UnderWay flash source destination total after := by
  obtain ⟨pages, blocks, erased, htotal, hpage, hcopied⟩ := h
  rw [Nat.succ_mul] at htotal
  have hwhole : g.eraseSize ∣ pages * g.eraseSize := Nat.dvd_mul_left _ _
  obtain ⟨rfl, rfl⟩ | ⟨-, hpage⟩ := hpage
  · exact ⟨_, 0, by rwa [Nat.zero_mul], Nat.zero_le _, by omega, hcopied⟩
  · refine ⟨_, erased, ?_, by omega, by omega, hcopied⟩
    rw [Nat.add_assoc, hpage]
    exact Nat.dvd_add hwhole (Nat.dvd_refl _)

theorem Halted.of_kept {source destination total : Nat} {after : Flash g}
    (h : Flash.Kept flash after) (htotal : g.eraseSize ≤ total) :
    Halted flash source destination total after := by
  refine ⟨0, 0, 0, by omega, .inl ⟨rfl, rfl⟩, ?_⟩
  rw [Nat.zero_mul, Nat.zero_mul]
  exact copied_zero.2 h

/-- Nothing is done of the pages behind the one that a copy was stopped in. -/
theorem Halted.widen {source destination total wider : Nat} {after : Flash g}
    (h : Halted flash source destination total after) (hle : total ≤ wider) :
    Halted flash source destination wider after := by
  obtain ⟨pages, blocks, erased, htotal, hpage⟩ := h
  exact ⟨pages, blocks, erased, Nat.le_trans htotal hle, hpage⟩

/-- A copy that was stopped behind pages that have been copied. -/
theorem Halted.behind {source destination n total : Nat} {mid after : Flash g}
    (h : Copied flash source destination n 0 mid)
    (h' : Halted mid (source + n) (destination + n) total after) (hn : g.eraseSize ∣ n)
    (hsource : source + (n + total) ≤ g.capacity)
    (hapart : source + (n + total) ≤ destination ∨ destination + n ≤ source) :
    Halted flash source destination (n + total) after := by
  obtain ⟨pages, blocks, erased, htotal, hpage, hmore⟩ := h'
  obtain ⟨before, rfl⟩ := hn
  rw [Nat.succ_mul] at htotal
  have hpages : (before + pages) * g.eraseSize
      = g.eraseSize * before + pages * g.eraseSize := by
    rw [Nat.add_mul, Nat.mul_comm before]
  have hdone : pages * g.eraseSize + blocks * blockSize ≤ total := by
    obtain ⟨rfl, -⟩ | ⟨-, hpage⟩ := hpage <;> omega
  refine ⟨before + pages, blocks, erased, by rw [Nat.succ_mul, hpages]; omega, hpage, ?_⟩
  rw [hpages, Nat.add_assoc]
  exact h.append hmore (by omega) (by omega)

/-- A copy under way behind what has been copied is a longer copy under way. -/
theorem UnderWay.behind {source destination n total : Nat} {mid after : Flash g}
    (h : Copied flash source destination n 0 mid)
    (h' : UnderWay mid (source + n) (destination + n) total after) (hn : g.eraseSize ∣ n)
    (hsource : source + (n + total) ≤ g.capacity)
    (hapart : source + (n + total) ≤ destination ∨ destination + n ≤ source) :
    UnderWay flash source destination (n + total) after := by
  obtain ⟨m, erased, hdvd, hless, hle, hmore⟩ := h'
  refine ⟨n + m, erased, ?_, hless, by omega, h.append hmore (by omega) (by omega)⟩
  rw [Nat.add_assoc]
  exact Nat.dvd_add hn hdvd

/-- Copying one page: the destination is erased first, and then filled piece by piece. -/
theorem ensures_copyPage (source destination : Nat) {page : Nat}
    (hwhole : g.writeSize ∣ g.eraseSize) (hblock : g.writeSize ∣ blockSize)
    (hstart : g.eraseSize ∣ destination + page)
    (hfit : destination + page + g.eraseSize ≤ g.capacity)
    (hsource : source + page + g.eraseSize ≤ g.capacity)
    (hapart : source + page + g.eraseSize ≤ destination + page
      ∨ destination + page + g.eraseSize ≤ source + page)
    (hg : flash.glitch = none) :
    FlashTask.Ensures (do
      FlashTask.erase (destination + page) (destination + page + g.eraseSize)
      copyPieces source destination (cut blockSize page (page + g.eraseSize))) flash
      (UnderWay flash (source + page) (destination + page) g.eraseSize)
      (fun _ after => Copied flash (source + page) (destination + page) g.eraseSize 0 after)
      (fun fault after => FlashTask.Failing flash fault ∧
        Halted flash (source + page) (destination + page) g.eraseSize after) := by
  have herase := FlashTask.ensures_erase (destination + page)
    (destination + page + g.eraseSize) hg (by omega) (by omega) (Nat.mod_eq_zero_of_dvd hstart)
    (Nat.mod_eq_zero_of_dvd (Nat.dvd_add hstart (Nat.dvd_refl _)))
  rw [Nat.add_sub_cancel_left] at herase
  refine FlashTask.Ensures.bind (herase.imp ?_ (fun _ _ h => h)
    fun _ _ h => ⟨h.1, .of_kept h.2 (Nat.le_refl _)⟩) ?_
  · rintro after (h | h)
    · exact .of_kept h
    · exact ⟨0, g.eraseSize, ⟨1, by omega⟩, Nat.le_refl _, by omega, copied_erased.2 h⟩
  intro _ mid herased
  have hmid : Copied flash (source + page) (destination + page) 0 g.eraseSize mid :=
    copied_erased.2 herased
  have hblank : mid.slice (destination + page) (page + g.eraseSize - page)
      = List.replicate (page + g.eraseSize - page) Flash.erasedByte := by
    rw [Nat.add_sub_cancel_left]
    have := Flash.slice_patch_self herased.memory_eq (by simp; omega)
    rwa [List.length_replicate] at this
  have hpieces := ensures_copyPieces source destination (show 0 < blockSize by decide) hblock
    (Nat.le_add_right page g.eraseSize) (by rwa [Nat.add_sub_cancel_left])
    (Nat.dvd_trans hwhole hstart) (by omega) (by omega) (by omega) hmid.glitch_eq hblank
  rw [Nat.add_sub_cancel_left] at hpieces
  -- Seen from before the erasure, what is not copied yet is erased.
  have hpart : ∀ {m after}, m ≤ g.eraseSize →
      Copied mid (source + page) (destination + page) m 0 after →
      Copied flash (source + page) (destination + page) m (g.eraseSize - m) after :=
    fun hm h => hmid.after_erasing h hm (by omega) (by omega) (by omega)
  refine hpieces.imp ?_ ?_ ?_
  · rintro after ⟨m, hm, h⟩
    exact ⟨_, _, ⟨1, by omega⟩, by omega, by omega, hpart hm h⟩
  · intro _ after h
    have := hpart (Nat.le_refl _) h
    rwa [Nat.sub_self] at this
  · rintro fault after ⟨hfailing, blocks, hm, h⟩
    refine ⟨hfailing.of_became hmid, 0, blocks, g.eraseSize - blocks * blockSize, by omega,
      .inr ⟨?_, ?_⟩, ?_⟩
    · exact Nat.sub_pos_of_lt hm
    · exact Nat.add_sub_cancel' (Nat.le_of_lt hm)
    · rw [Nat.zero_mul, Nat.zero_add]
      exact hpart (Nat.le_of_lt hm) h

theorem ensures_copyEach (hpage : 0 < g.eraseSize) (hwhole : g.writeSize ∣ g.eraseSize)
    (hblock : g.writeSize ∣ blockSize) {source destination first length : Nat}
    (hfirst : g.eraseSize ∣ first) (hle : first ≤ span g length)
    (hstart : g.eraseSize ∣ destination) (hfit : destination + span g length ≤ g.capacity)
    (hsource : source + span g length ≤ g.capacity)
    (hapart : source + span g length ≤ destination + first
      ∨ destination + span g length ≤ source + first)
    (hg : flash.glitch = none) :
    (copyEach g source destination length (cut g.eraseSize first length)).Ensures flash
      (UnderWay flash (source + first) (destination + first) (span g length - first))
      (fun _ after => Copied flash (source + first) (destination + first)
        (span g length - first) 0 after)
      (fun fault after => FlashTask.Failing flash fault ∧
        Halted flash (source + first) (destination + first) (span g length - first) after) := by
  have hspan := dvd_span g length
  induction hn : span g length - first using Nat.strongRecOn generalizing first flash with
  | ind n ih =>
    by_cases hlt : first < length
    · have hnext : first + g.eraseSize ≤ span g length := by
        have hlt' : first < span g length := Nat.lt_of_lt_of_le hlt (le_span hpage length)
        have := Nat.le_of_dvd (by omega) (Nat.dvd_sub hspan hfirst)
        omega
      obtain ⟨rest, hrest⟩ : ∃ rest, n = g.eraseSize + rest :=
        Nat.exists_eq_add_of_le (by omega)
      obtain rfl := hrest
      rw [cut_of_lt hlt hpage, copyEach, Nat.min_eq_left hnext, ← bind_assoc]
      have hpaged := ensures_copyPage source destination hwhole hblock
        (Nat.dvd_add hstart hfirst) (by omega) (by omega) (by omega) hg
      -- A page under way is a copy under way, of which nothing behind that page is done.
      have hwiden : ∀ {after}, UnderWay flash (source + first) (destination + first)
          g.eraseSize after → UnderWay flash (source + first) (destination + first)
          (g.eraseSize + rest) after := by
        rintro after ⟨m, erased, hdvd, hless, hm, h⟩
        exact ⟨m, erased, hdvd, hless, by omega, h⟩
      refine (hpaged.imp (fun _ h => hwiden h) (fun _ _ h => h)
        fun _ _ h => ⟨h.1, h.2.widen (Nat.le_add_right _ _)⟩).bind ?_
      intro _ mid hmid
      have hbehind := ih (span g length - (first + g.eraseSize)) (by omega)
        (Nat.dvd_add hfirst (Nat.dvd_refl _)) hnext (by omega) hmid.glitch_eq rfl
      rw [← Nat.add_assoc, ← Nat.add_assoc,
        show span g length - (first + g.eraseSize) = rest from by omega] at hbehind
      have hgone : ∀ {after}, UnderWay mid (source + first + g.eraseSize)
          (destination + first + g.eraseSize) rest after →
          UnderWay flash (source + first) (destination + first) (g.eraseSize + rest) after :=
        fun h => .behind hmid h (Nat.dvd_refl _) (by omega) (by omega)
      exact hbehind.imp (fun _ h => hgone h)
        (fun _ _ h => hmid.append h (by omega) (by omega))
        fun _ _ h => ⟨h.1.of_became hmid, .behind hmid h.2 (Nat.dvd_refl _) (by omega) (by omega)⟩
    · -- No page begins behind the length, so this is where the range ends.
      have hend : n = 0 := by
        have := span_le hpage hfirst (Nat.le_of_not_lt hlt)
        omega
      rw [cut_of_le (by omega), copyEach]
      apply FlashTask.ensures_pure
      rw [hend]
      exact copied_zero.2 (Flash.Kept.refl hg)

/-- A copy of pages makes the destination's pages equal to the source's and changes nothing
else. -/
theorem ensures_copy (source destination length : Nat) (hpage : 0 < g.eraseSize)
    (hwhole : g.writeSize ∣ g.eraseSize) (hblock : g.writeSize ∣ blockSize)
    (hstart : g.eraseSize ∣ destination) (hfit : destination + span g length ≤ g.capacity)
    (hsource : source + span g length ≤ g.capacity)
    (hapart : source + span g length ≤ destination ∨ destination + span g length ≤ source)
    (hg : flash.glitch = none) :
    (copy g source destination length).Ensures flash
      (UnderWay flash source destination (span g length))
      (fun _ after => Copied flash source destination (span g length) 0 after)
      (fun fault after => FlashTask.Failing flash fault ∧
        Halted flash source destination (span g length) after) :=
  ensures_copyEach hpage hwhole hblock (Nat.dvd_zero _) (Nat.zero_le _) hstart hfit hsource hapart
    hg

end Pages

end Reflash
