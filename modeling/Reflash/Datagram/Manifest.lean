/-
  Reflash.Datagram.Manifest

  What is known of a firmware image: size, checksum, version and id. It travels
  in front of the image as 26 bytes, and a node keeps it beside the installed
  image as a 32 byte record (`Reflash.Install.Record`).
-/
import Reflash.Datagram.Basic

namespace Reflash

/-- Sixteen bytes that name an image, zero filled. -/
structure FirmwareId where
  bytes : Bytes := List.replicate 16 0
  length_bytes : bytes.length = 16 := by simp
  deriving DecidableEq

namespace FirmwareId

/-- Bytes of an id. -/
def size : Nat := 16

instance : Inhabited FirmwareId := ⟨{}⟩

/-- The id made of the first sixteen bytes, zero filled. -/
def ofBytes (bytes : Bytes) : FirmwareId where
  bytes := bytes.padTo 16
  length_bytes := by simp

/-- The id made of the first sixteen bytes of a label's UTF-8 form. -/
def ofLabel (label : String) : FirmwareId :=
  ofBytes label.toUTF8.toList

/-- The id up to its first zero byte. -/
def trimmed (id : FirmwareId) : Bytes :=
  id.bytes.takeWhile (· ≠ 0)

end FirmwareId

structure Manifest where
  size : UInt32
  crc : UInt32
  major : UInt8 := 0
  minor : UInt8 := 0
  id : FirmwareId := default
  deriving DecidableEq

instance : Inhabited Manifest := ⟨{ size := 0, crc := 0 }⟩

namespace Manifest

/-- Bytes of the travelling form. -/
def encodedSize : Nat := 26

def encode (manifest : Manifest) : Bytes :=
  LittleEndian.encode32 manifest.size ++ (LittleEndian.encode32 manifest.crc ++
    manifest.major :: manifest.minor :: manifest.id.bytes)

/-- Reads the travelling form from the first 26 bytes. -/
def decode (bytes : Bytes) : Except Fault Manifest :=
  if bytes.length < encodedSize then .error .invalidDatagram
  else .ok {
    size := LittleEndian.word32At bytes 0
    crc := LittleEndian.word32At bytes 4
    major := bytes.byteAt 8
    minor := bytes.byteAt 9
    id := .ofBytes (bytes.drop 10) }

/-- A manifest being filled in. Size and checksum have to be given, the rest may stay zero. -/
structure Draft where
  size? : Option UInt32 := none
  crc? : Option UInt32 := none
  major : UInt8 := 0
  minor : UInt8 := 0
  id : FirmwareId := default

/-- Takes size and checksum from an image. -/
def Draft.describe (draft : Draft) (image : Bytes) : Draft :=
  { draft with size? := some (.ofNat image.length), crc? := some (Crc32.padded image) }

def Draft.finish (draft : Draft) : Except Fault Manifest :=
  match draft.size?, draft.crc? with
  | some size, some crc =>
    .ok { size, crc, major := draft.major, minor := draft.minor, id := draft.id }
  | _, _ => .error .invalidArgs

/-- The datagram that announces an image. -/
def toDatagram (manifest : Manifest) (id : UInt32) (target : Option UInt8) : Datagram :=
  .pack .firmwareMetadata id target manifest.encode

end Manifest

end Reflash
