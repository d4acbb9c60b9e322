/-
  Reflash.Proofs.Flash.Contents

  What a part holds, byte by byte and slice by slice. Patching changes exactly the
  bytes that are put in, so a slice that lies apart from them is as it was and a
  slice around them is cut open and closed again over them. Erasing is patching with
  erased bytes. `Flash.Became` says what one request, or a run of requests, has made
  of a part.
-/
import Reflash.Flash.Memory

namespace Reflash

namespace Flash

variable {g : Geometry}

/-! ## Slices, byte by byte -/

theorem getElem?_slice (flash : Flash g) (offset length k : Nat) :
    (flash.slice offset length)[k]? = if k < length then flash.memory[offset + k]? else none := by
  rw [slice, Array.getElem?_toList, Array.getElem?_extract]
  by_cases hk : k < length
  · rw [if_pos hk]
    by_cases hin : offset + k < g.capacity
    · rw [if_pos (by simp; omega), ← Vector.getElem?_toArray]
    · rw [if_neg (by simp; omega)]
      exact (Vector.getElem?_eq_none (by omega)).symm
  · rw [if_neg (by omega), if_neg hk]

theorem length_slice {flash : Flash g} {offset length : Nat} (h : offset + length ≤ g.capacity) :
    (flash.slice offset length).length = length := by
  simp [slice]
  omega

@[simp] theorem slice_zero (flash : Flash g) (offset : Nat) : flash.slice offset 0 = [] := by
  simp [slice]

/-- Slices agree when the bytes in them do. -/
theorem slice_congr {a b : Flash g} {offset length : Nat}
    (h : ∀ i, offset ≤ i → i < offset + length → a.memory[i]? = b.memory[i]?) :
    a.slice offset length = b.slice offset length := by
  apply List.ext_getElem?
  intro k
  rw [getElem?_slice, getElem?_slice]
  by_cases hk : k < length
  · rw [if_pos hk, if_pos hk]
    exact h (offset + k) (by omega) (by omega)
  · rw [if_neg hk, if_neg hk]

/-- Bytes agree where the slices around them do. -/
theorem getElem?_of_slice_eq {a b : Flash g} {offset length : Nat}
    (h : a.slice offset length = b.slice offset length) {place : Nat} (hlow : offset ≤ place)
    (hhigh : place < offset + length) : a.memory[place]? = b.memory[place]? := by
  obtain ⟨k, rfl⟩ := Nat.exists_eq_add_of_le hlow
  have hbyte := congrArg (·[k]?) h
  simp only [getElem?_slice] at hbyte
  rwa [if_pos (by omega), if_pos (by omega)] at hbyte

theorem slice_of_memory_eq {a b : Flash g} (h : a.memory = b.memory) (offset length : Nat) :
    a.slice offset length = b.slice offset length := by
  simp only [slice]
  rw [h]

theorem slice_append (flash : Flash g) {offset first second : Nat}
    (h : offset + (first + second) ≤ g.capacity) :
    flash.slice offset (first + second)
      = flash.slice offset first ++ flash.slice (offset + first) second := by
  have hfirst : (flash.slice offset first).length = first := length_slice (by omega)
  apply List.ext_getElem?
  intro k
  rw [getElem?_slice, List.getElem?_append, hfirst]
  by_cases hk : k < first
  · rw [if_pos hk, if_pos (by omega), getElem?_slice, if_pos hk]
  · rw [if_neg hk, getElem?_slice]
    by_cases hk' : k < first + second
    · rw [if_pos hk', if_pos (by omega)]
      congr 1
      omega
    · rw [if_neg hk', if_neg (by omega)]

theorem slice_take (flash : Flash g) (offset : Nat) {length n : Nat} (h : n ≤ length) :
    (flash.slice offset length).take n = flash.slice offset n := by
  apply List.ext_getElem?
  intro k
  rw [List.getElem?_take, getElem?_slice, getElem?_slice]
  by_cases hk : k < n
  · rw [if_pos hk, if_pos hk, if_pos (by omega)]
  · rw [if_neg hk, if_neg hk]

/-- The bytes of a stretch that reads as `bytes`. -/
theorem slice_eq_iff {flash : Flash g} {offset : Nat} {bytes : Bytes} :
    flash.slice offset bytes.length = bytes
      ↔ ∀ k, k < bytes.length → flash.memory[offset + k]? = bytes[k]? := by
  constructor
  · intro heq k hk
    have hk' := getElem?_slice flash offset bytes.length k
    rw [heq, if_pos hk] at hk'
    exact hk'.symm
  · intro hall
    apply List.ext_getElem?
    intro k
    rw [getElem?_slice]
    by_cases hk : k < bytes.length
    · rw [if_pos hk, hall k hk]
    · rw [if_neg hk]
      exact (List.getElem?_eq_none (by omega)).symm

/-! ## Patching -/

theorem getElem?_patch_outside {n : Nat} (memory : Vector UInt8 n) {offset : Nat} {bytes : Bytes}
    {i : Nat} (h : i < offset ∨ offset + bytes.length ≤ i) :
    (patch memory offset bytes)[i]? = memory[i]? := by
  induction bytes generalizing memory offset with
  | nil => rfl
  | cons byte bytes ih =>
    rw [List.length_cons] at h
    rw [patch, ih _ (by omega), Vector.getElem?_setIfInBounds_ne (by omega)]

theorem getElem?_patch_inside {n : Nat} (memory : Vector UInt8 n) {offset : Nat} {bytes : Bytes}
    {i : Nat} (hfit : offset + bytes.length ≤ n) (hlow : offset ≤ i)
    (hhigh : i < offset + bytes.length) :
    (patch memory offset bytes)[i]? = bytes[i - offset]? := by
  induction bytes generalizing memory offset with
  | nil => rw [List.length_nil] at hhigh; omega
  | cons byte bytes ih =>
    rw [List.length_cons] at hfit hhigh
    rw [patch]
    by_cases heq : i = offset
    · subst heq
      rw [getElem?_patch_outside _ (by omega), Vector.getElem?_setIfInBounds_self_of_lt (by omega),
        Nat.sub_self]
      rfl
    · rw [ih _ (by omega) (by omega) (by omega)]
      obtain ⟨k, hk⟩ : ∃ k, i - offset = k + 1 := ⟨i - offset - 1, by omega⟩
      rw [hk, List.getElem?_cons_succ]
      congr 1
      omega

theorem patch_append {n : Nat} (memory : Vector UInt8 n) (offset : Nat) (a b : Bytes) :
    patch memory offset (a ++ b) = patch (patch memory offset a) (offset + a.length) b := by
  induction a generalizing memory offset with
  | nil => rfl
  | cons byte a ih =>
    rw [List.cons_append, patch, patch, ih, List.length_cons]
    congr 1
    omega

/-- Two memories are equal when all their bytes are. -/
theorem memory_ext {n : Nat} {a b : Vector UInt8 n} (h : ∀ i, i < n → a[i]? = b[i]?) : a = b := by
  apply Vector.ext
  intro i hi
  have := h i hi
  rw [Vector.getElem?_eq_getElem hi, Vector.getElem?_eq_getElem hi] at this
  exact Option.some.inj this

/-- A patch over the beginning of an earlier one leaves the rest of that. -/
theorem patch_patch {n : Nat} (memory : Vector UInt8 n) {offset : Nat} {a b : Bytes}
    (hlen : b.length ≤ a.length) (hfit : offset + a.length ≤ n) :
    patch (patch memory offset a) offset b = patch memory offset (b ++ a.drop b.length) := by
  have hlength : (b ++ a.drop b.length).length = a.length := by
    rw [List.length_append, List.length_drop]
    omega
  apply memory_ext
  intro i hi
  by_cases hout : i < offset ∨ offset + a.length ≤ i
  · rw [getElem?_patch_outside _ (by omega), getElem?_patch_outside _ hout,
      getElem?_patch_outside _ (by omega)]
  · have hwhole : (patch memory offset (b ++ a.drop b.length))[i]?
        = (b ++ a.drop b.length)[i - offset]? :=
      getElem?_patch_inside _ (by omega) (by omega) (by omega)
    rw [hwhole, List.getElem?_append]
    by_cases hb : i - offset < b.length
    · rw [if_pos hb, getElem?_patch_inside _ (by omega) (by omega) (by omega)]
    · rw [if_neg hb, getElem?_patch_outside _ (by omega),
        getElem?_patch_inside _ hfit (by omega) (by omega), List.getElem?_drop]
      congr 1
      omega

/-- Erasing is patching with erased bytes. -/
theorem blank_eq_patch {n : Nat} (memory : Vector UInt8 n) (offset count : Nat) :
    blank memory offset count = patch memory offset (List.replicate count erasedByte) := by
  induction count generalizing memory offset with
  | zero => rfl
  | succ count ih => rw [blank, ih, List.replicate_succ, patch]

/-! ## Slices of a patched part -/

theorem slice_patch_apart {a b : Flash g} {at' : Nat} {bytes : Bytes} {offset length : Nat}
    (h : b.memory = patch a.memory at' bytes)
    (hapart : offset + length ≤ at' ∨ at' + bytes.length ≤ offset) :
    b.slice offset length = a.slice offset length := by
  apply slice_congr
  intro i hlow hhigh
  rw [h, getElem?_patch_outside _ (by omega)]

theorem slice_patch_self {a b : Flash g} {at' : Nat} {bytes : Bytes}
    (h : b.memory = patch a.memory at' bytes) (hfit : at' + bytes.length ≤ g.capacity) :
    b.slice at' bytes.length = bytes := by
  rw [slice_eq_iff]
  intro k hk
  rw [h, getElem?_patch_inside _ hfit (by omega) (by omega), Nat.add_sub_cancel_left]

/-! ## Programming erased bytes -/

theorem raises_replicate (n : Nat) (bytes : Bytes) :
    raises (List.replicate n erasedByte) bytes = false := by
  rw [raises, List.any_eq_false]
  intro pair hmem
  obtain ⟨old, new⟩ := pair
  have hold : old = erasedByte := List.eq_of_mem_replicate (List.of_mem_zip hmem).1
  subst hold
  show ¬(new &&& ~~~erasedByte != 0) = true
  rw [show (~~~erasedByte : UInt8) = 0 from rfl, UInt8.and_zero]
  decide

/-! ## What has become of a part -/

/-- `after` holds `memory`. Nothing is planned to go wrong with it that was not planned with
`before`, and no write loses bits. -/
structure Became (before : Flash g) (memory : Vector UInt8 g.capacity) (after : Flash g) :
    Prop where
  memory_eq : after.memory = memory
  glitch_eq : after.glitch = none
  fault_eq : before.fault = none → after.fault = none

/-- `after` holds what `before` did. -/
abbrev Kept (before after : Flash g) : Prop := Became before before.memory after

theorem Kept.refl {flash : Flash g} (h : flash.glitch = none) : Kept flash flash :=
  ⟨rfl, h, id⟩

theorem Became.trans {a b c : Flash g} {memory memory' : Vector UInt8 g.capacity}
    (h : Became a memory b) (h' : Became b memory' c) : Became a memory' c :=
  ⟨h'.memory_eq, h'.glitch_eq, fun hfault => h'.fault_eq (h.fault_eq hfault)⟩

theorem Became.then_kept {a b c : Flash g} {memory : Vector UInt8 g.capacity}
    (h : Became a memory b) (h' : Kept b c) : Became a memory c := by
  have := h.trans h'
  rwa [h.memory_eq] at this

theorem Kept.slice_eq {a b : Flash g} (h : Kept a b) (offset length : Nat) :
    b.slice offset length = a.slice offset length :=
  slice_of_memory_eq h.memory_eq offset length

/-! ## The three requests -/

/-- Taking a planned fault changes neither the bytes nor the planned loss of bits. -/
theorem takeFault_kept {flash : Flash g} (h : flash.glitch = none) (operation : FlashOperation) :
    Kept flash (flash.takeFault operation).2 := by
  rw [takeFault]
  split
  · exact Kept.refl h
  · rename_i planned hplanned
    split
    · exact Kept.refl h
    · split
      · exact ⟨rfl, h, fun _ => rfl⟩
      · exact ⟨rfl, h, fun hnone => absurd (hnone.symm.trans hplanned) nofun⟩

/-- A request fails only where that was planned. -/
theorem fault_ne_none_of_takeFault {flash : Flash g} {operation : FlashOperation}
    (h : (flash.takeFault operation).1 = true) : flash.fault ≠ none := by
  intro hnone
  rw [takeFault, hnone] at h
  cases h

/-- A read inside the part gives the slice, unless it was planned to fail. -/
theorem read_cases {flash : Flash g} {offset length : Nat} (hg : flash.glitch = none)
    (hfit : offset + length ≤ g.capacity) :
    ((flash.read offset length).1 = .ok (flash.slice offset length)
        ∧ Kept flash (flash.read offset length).2)
      ∨ ((flash.read offset length).1 = .error .other ∧ flash.fault ≠ none
        ∧ Kept flash (flash.read offset length).2) := by
  have hcheck : checkSlice g.capacity 1 offset length = .ok () := by
    rw [checkSlice, if_neg (by omega), if_neg (by omega)]
  have hkept := takeFault_kept hg .read
  rw [read, hcheck]
  by_cases hfailed : (flash.takeFault .read).1 = true
  · right
    have hfault := fault_ne_none_of_takeFault hfailed
    simpa only [hfailed, if_true] using ⟨trivial, hfault, hkept⟩
  · left
    simp only [hfailed]
    exact ⟨congrArg _ (hkept.slice_eq _ _), hkept⟩

/-- An aligned write over erased bytes programs them, unless it was planned to fail. -/
theorem write_cases {flash : Flash g} {offset : Nat} {bytes : Bytes} (hg : flash.glitch = none)
    (hfit : offset + bytes.length ≤ g.capacity) (hoffset : offset % g.writeSize = 0)
    (hlength : bytes.length % g.writeSize = 0)
    (hraises : raises (flash.slice offset bytes.length) bytes = false) :
    ((flash.write offset bytes).1 = .ok ()
        ∧ Became flash (patch flash.memory offset bytes) (flash.write offset bytes).2)
      ∨ ((flash.write offset bytes).1 = .error .other ∧ flash.fault ≠ none
        ∧ Kept flash (flash.write offset bytes).2) := by
  have hcheck : checkSlice g.capacity g.writeSize offset bytes.length = .ok () := by
    rw [checkSlice, if_neg (by omega), if_neg (by omega)]
  have htaken : flash.takeGlitch bytes = (bytes, flash) := by
    rw [takeGlitch, hg]
  have hkept := takeFault_kept hg .write
  rw [write, htaken]
  simp only [hcheck, hkept.slice_eq, hraises]
  by_cases hfailed : (flash.takeFault .write).1 = true
  · right
    have hfault := fault_ne_none_of_takeFault hfailed
    simpa only [hfailed, Bool.or_false, if_true] using ⟨trivial, hfault, hkept⟩
  · left
    simp only [hfailed, Bool.or_false]
    exact ⟨rfl, congrArg (patch · offset bytes) hkept.memory_eq, hkept.glitch_eq, hkept.fault_eq⟩

/-- Whole pages inside the part are erased, unless that was planned to fail. -/
theorem erase_cases {flash : Flash g} {first last : Nat} (hg : flash.glitch = none)
    (horder : first ≤ last) (hfit : last ≤ g.capacity) (hfirst : first % g.eraseSize = 0)
    (hlast : last % g.eraseSize = 0) :
    ((flash.erase first last).1 = .ok ()
        ∧ Became flash (patch flash.memory first (List.replicate (last - first) erasedByte))
          (flash.erase first last).2)
      ∨ ((flash.erase first last).1 = .error .other ∧ flash.fault ≠ none
        ∧ Kept flash (flash.erase first last).2) := by
  have hcheck : checkRange g.capacity g.eraseSize first last = .ok () := by
    rw [checkRange, if_neg (by omega), if_neg (by omega)]
  have hkept := takeFault_kept hg .erase
  rw [erase, hcheck]
  by_cases hfailed : (flash.takeFault .erase).1 = true
  · right
    have hfault := fault_ne_none_of_takeFault hfailed
    simpa only [hfailed, if_true] using ⟨trivial, hfault, hkept⟩
  · left
    simp only [hfailed, blank_eq_patch]
    refine ⟨rfl, ?_, hkept.glitch_eq, hkept.fault_eq⟩
    exact congrArg (patch · first _) hkept.memory_eq

end Flash

end Reflash
