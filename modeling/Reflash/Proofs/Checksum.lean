/-
  Reflash.Proofs.Checksum

  A checksum taken piece by piece is the checksum of the whole, however the pieces
  are cut.
-/
import Reflash.Checksum.Crc32

namespace Reflash

namespace Crc32

/-! ## Digests -/

namespace Digest

theorem update_append (digest : Digest) (a b : Bytes) :
    (digest.update a).update b = digest.update (a ++ b) := by
  simp only [update]
  rw [absorbAll_append, List.length_append, Nat.add_assoc]

theorem foldl_update (digest : Digest) (pieces : List Bytes) :
    pieces.foldl update digest = digest.update pieces.flatten := by
  induction pieces generalizing digest with
  | nil => rfl
  | cons piece pieces ih => rw [List.foldl_cons, ih, update_append, List.flatten_cons]

/-- Zeros are taken the same a word at a time as at once. -/
theorem updateZeros_eq (digest : Digest) (count : Nat) :
    digest.updateZeros count = digest.update (List.replicate count 0) := by
  fun_induction updateZeros digest count with
  | case1 digest count ih => rw [ih, update_append]; rfl
  | case2 digest count h => rfl

/-- A digest ends as the checksum of what it has taken, up to the end of a word. -/
theorem finish_update_eq (bytes : Bytes) : (({} : Digest).update bytes).finish
    = ofBytes (bytes ++ List.replicate (4 * wordsFor bytes.length - bytes.length) 0) := by
  have hlength : (({} : Digest).update bytes).length = bytes.length := Nat.zero_add _
  rw [finish, updateZeros_eq, update_append, hlength]
  rfl

end Digest

/-- Bytes that are missing in the words count as zeros. -/
theorem ofWords_eq (bytes : Bytes) (count : Nat) :
    ofWords bytes count = ofBytes (bytes.padTo (4 * count)) := by
  -- Whole words are not filled any further.
  have hwhole : 4 * wordsFor (bytes.padTo (4 * count)).length - (bytes.padTo (4 * count)).length
      = 0 := by
    rw [Bytes.length_padTo, wordsFor]
    omega
  have hmissing : 4 * count - (bytes.take (4 * count)).length = 4 * count - bytes.length := by
    rw [List.length_take]
    omega
  rw [ofWords, hmissing, Digest.updateZeros_eq, Digest.update_append]
  show (({} : Digest).update (bytes.padTo (4 * count))).finish = _
  rw [Digest.finish_update_eq, hwhole, List.replicate_zero, List.append_nil]

/-- Data that ends inside a word is followed by zeros up to its end. -/
theorem padded_eq (bytes : Bytes) : padded bytes
    = ofBytes (bytes ++ List.replicate (4 * wordsFor bytes.length - bytes.length) 0) := by
  have hle : bytes.length ≤ 4 * wordsFor bytes.length := by
    rw [wordsFor]
    omega
  rw [padded, ofWords_eq, Bytes.padTo, List.take_of_length_le hle]

/-- A digest fills up with zeros just as the checksum of the whole does. -/
theorem Digest.finish_update (bytes : Bytes) :
    (({} : Digest).update bytes).finish = padded bytes := by
  rw [finish_update_eq, padded_eq]

theorem ofPieces_eq_padded (pieces : List Bytes) : ofPieces pieces = padded pieces.flatten := by
  rw [ofPieces, Digest.foldl_update, Digest.finish_update]

end Crc32

/-! ## Cutting into pieces -/

theorem Bytes.flatten_pieces {size : Nat} (hsize : 0 < size) (bytes : Bytes) :
    (bytes.pieces size).flatten = bytes := by
  fun_induction Bytes.pieces size bytes with
  | case1 bytes h => exact (List.length_eq_zero_iff.1 (h.resolve_right (by omega))).symm
  | case2 bytes h ih => rw [List.flatten_cons, ih, List.take_append_drop]

/-- The first pieces are the front of the whole. -/
theorem Bytes.flatten_take_pieces {size : Nat} (hsize : 0 < size) (bytes : Bytes) (count : Nat) :
    ((bytes.pieces size).take count).flatten = bytes.take (count * size) := by
  fun_induction Bytes.pieces size bytes generalizing count with
  | case1 bytes h =>
    rw [List.length_eq_zero_iff.1 (h.resolve_right (by omega)), List.take_nil, List.take_nil]
    rfl
  | case2 bytes h ih =>
    cases count with
    | zero => rw [Nat.zero_mul, List.take_zero, List.take_zero, List.flatten_nil]
    | succ count =>
      rw [List.take_succ_cons, List.flatten_cons, ih, Nat.succ_mul, Nat.add_comm, List.take_add]

/-- The announced checksum of an image is that of the image as a whole. -/
theorem Crc32.ofImage_eq_padded (image : Bytes) : ofImage image = padded image := by
  rw [ofImage, ofPieces_eq_padded, Bytes.flatten_pieces (by decide)]

end Reflash
