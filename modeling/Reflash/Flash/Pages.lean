/-
  Reflash.Flash.Pages

  Work on ranges of flash, in blocks of 256 bytes: checksums, blank checks, and
  copying page by page. A page that is copied to is erased just before it is
  programmed.
-/
import Reflash.Checksum.Crc32
import Reflash.Flash.Procedure

namespace Reflash

namespace Pages

/-- Bytes moved at a time. -/
def blockSize : Nat := 256

/-- The range from `first` up to `last` in pieces of `size` bytes, as offset and length of each;
the last piece may be shorter. -/
def cut (size first last : Nat) : List (Nat × Nat) :=
  if _h : first < last ∧ 0 < size then
    (first, min size (last - first)) :: cut size (first + size) last
  else []
termination_by last - first
decreasing_by omega

/-- `length` rounded up to whole erase pages. -/
def span (g : Geometry) (length : Nat) : Nat :=
  (length + g.eraseSize - 1) / g.eraseSize * g.eraseSize

/-- The checksum of `length` bytes at `offset`. -/
def crc (offset length : Nat) : FlashTask UInt32 := do
  let digest ← (cut blockSize 0 length).foldlM (fun (digest : Crc32.Digest) (at', size) => do
    let bytes ← FlashTask.read (offset + at') size
    pure (digest.update bytes)) {}
  pure digest.finish

/-- Whether all the pieces read as erased; stops at the first that does not. -/
def arePiecesBlank (offset : Nat) : List (Nat × Nat) → FlashTask Bool
  | [] => pure true
  | (at', size) :: pieces => do
    let bytes ← FlashTask.read (offset + at') size
    if bytes.any (· != Flash.erasedByte) then pure false else arePiecesBlank offset pieces

/-- Whether `length` bytes at `offset` all read as erased. -/
def isBlank (offset length : Nat) : FlashTask Bool :=
  arePiecesBlank offset (cut blockSize 0 length)

/-- Copies the pieces, given relative to both offsets. -/
def copyPieces (source destination : Nat) : List (Nat × Nat) → FlashTask Unit
  | [] => pure ()
  | (at', size) :: pieces => do
    let bytes ← FlashTask.read (source + at') size
    FlashTask.write (destination + at') bytes
    copyPieces source destination pieces

/-- Copies the pages that begin at the given places, relative to both offsets. -/
def copyEach (g : Geometry) (source destination length : Nat) : List (Nat × Nat) → FlashTask Unit
  | [] => pure ()
  | (page, _) :: pages => do
    FlashTask.erase (destination + page) (destination + page + g.eraseSize)
    -- The last page is copied as a whole: behind the image the staging region is blank.
    copyPieces source destination
      (cut blockSize page (min (page + g.eraseSize) (span g length)))
    copyEach g source destination length pages

/-- Copies the pages that hold `length` bytes. -/
def copy (g : Geometry) (source destination length : Nat) : FlashTask Unit :=
  copyEach g source destination length (cut g.eraseSize 0 length)

end Pages

end Reflash
