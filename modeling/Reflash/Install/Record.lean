/-
  Reflash.Install.Record

  The record of the installed image, 32 bytes at the start of a page of its own:

      0 - 3    magic number
      4        major version
      5        minor version
      6 - 7    zero
      8 - 11   image size
      12 - 15  image checksum
      16 - 31  firmware id
-/
import Reflash.Datagram.Manifest
import Reflash.Install.Layout

namespace Reflash

namespace Record

/-- The word a record begins with. -/
def magic : UInt32 := 0x41544F46

def encode (manifest : Manifest) : Bytes :=
  LittleEndian.encode32 magic ++ (manifest.major :: manifest.minor :: 0 :: 0 ::
    (LittleEndian.encode32 manifest.size ++ (LittleEndian.encode32 manifest.crc ++
      manifest.id.bytes)))

/-- Reads a record, `none` where there is none. -/
def decode? (bytes : Bytes) : Option Manifest :=
  if LittleEndian.word32At bytes 0 ≠ magic then none
  else some {
    size := LittleEndian.word32At bytes 8
    crc := LittleEndian.word32At bytes 12
    major := bytes.byteAt 4
    minor := bytes.byteAt 5
    id := .ofBytes (bytes.drop 16) }

/-- Erases the record page, so that nothing vouches for the active region. -/
def clear (g : Geometry) (offset : Nat) : FlashTask Unit :=
  FlashTask.erase offset (offset + g.eraseSize)

/-- Rewrites the record page. -/
def store (g : Geometry) (offset : Nat) (manifest : Manifest) : FlashTask Unit := do
  clear g offset
  FlashTask.write offset (encode manifest)

/-- Reads the record page. -/
def load (offset : Nat) : FlashTask (Option Manifest) := do
  let bytes ← FlashTask.read offset Layout.recordSize
  pure (decode? bytes)

end Record

end Reflash
