/-
  Reflash.Checksum.Crc32

  The cyclic redundancy check of the link: width 32, generator 0x04C11DB7 taken
  lowest bit first (so the feedback mask is its mirror image 0xEDB88320), the
  register preset to all ones and complemented at the end.

  Every checksum is taken over whole 32 bit words, so data that ends inside a
  word is followed by zeros up to the word's end. `Digest` takes data piece by
  piece and gives the same value.
-/
import Reflash.Bytes.LittleEndian

namespace Reflash

namespace Crc32

/-! ## The shift register -/

/-- The generator without its leading term, lowest bit first. -/
def feedback : UInt32 := 0xEDB88320

/-- Shifts one bit out, feeding the generator back when it was a one. -/
def shift (register : UInt32) : UInt32 :=
  if register &&& 1 = 1 then (register >>> 1) ^^^ feedback else register >>> 1

/-- Takes one byte in at the low end and shifts all eight of its bits out. -/
def absorb (register : UInt32) (byte : UInt8) : UInt32 :=
  let r := register ^^^ byte.toUInt32
  shift (shift (shift (shift (shift (shift (shift (shift r)))))))

/-- The register after a run of bytes. -/
def absorbAll (register : UInt32) (bytes : Bytes) : UInt32 :=
  bytes.foldl absorb register

/-- The register before any data. -/
def start : UInt32 := 0xFFFFFFFF

/-- The checksum of an octet string. -/
def ofBytes (bytes : Bytes) : UInt32 :=
  ~~~(absorbAll start bytes)

theorem absorbAll_append (register : UInt32) (a b : Bytes) :
    absorbAll register (a ++ b) = absorbAll (absorbAll register a) b := by
  simp [absorbAll]

/-! ## Piece by piece -/

/-- Words needed for `n` bytes. -/
def wordsFor (n : Nat) : Nat :=
  (n + 3) / 4

/-- A checksum under way: the register and how many bytes it has taken. -/
structure Digest where
  register : UInt32 := start
  length : Nat := 0
  deriving DecidableEq

namespace Digest

/-- Takes the next piece of the data. -/
def update (digest : Digest) (bytes : Bytes) : Digest :=
  { register := absorbAll digest.register bytes, length := digest.length + bytes.length }

/-- Takes so many zeros, a word of them at a time. -/
def updateZeros (digest : Digest) : Nat → Digest
  | count + 4 => (digest.update [0, 0, 0, 0]).updateZeros count
  | count => digest.update (List.replicate count 0)

/-- Fills the last word with zeros and gives the checksum. -/
def finish (digest : Digest) : UInt32 :=
  ~~~(digest.updateZeros (4 * wordsFor digest.length - digest.length)).register

end Digest

/-- The checksum of data given in pieces. -/
def ofPieces (pieces : List Bytes) : UInt32 :=
  (pieces.foldl Digest.update {}).finish

/-! ## Whole words -/

/-- The checksum of the first `count` words of `bytes`, missing bytes being zero. -/
def ofWords (bytes : Bytes) (count : Nat) : UInt32 :=
  let front := bytes.take (4 * count)
  ((({} : Digest).update front).updateZeros (4 * count - front.length)).finish

/-- The checksum of `bytes`, zero filled up to a word boundary. -/
def padded (bytes : Bytes) : UInt32 :=
  ofWords bytes (wordsFor bytes.length)

end Crc32

/-- Consecutive pieces of `size` bytes, the last one possibly shorter. -/
def Bytes.pieces (size : Nat) (bytes : Bytes) : List Bytes :=
  if _h : bytes.length = 0 ∨ size = 0 then []
  else bytes.take size :: Bytes.pieces size (bytes.drop size)
termination_by bytes.length
decreasing_by simp; omega

/-- The checksum a firmware image is announced with, taken in pieces of 256 bytes. -/
def Crc32.ofImage (image : Bytes) : UInt32 :=
  ofPieces (image.pieces 256)

end Reflash
