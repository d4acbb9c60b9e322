/-
  Reflash.Datagram.Header

  The 17 byte header that announces a datagram:

      0        kind
      1 - 4    id
      5 - 8    payload length
      9 - 10   number of data packets
      11 - 14  checksum of the payload
      15       1 if one node is addressed, else 0
      16       that node
-/
import Reflash.Packet

namespace Reflash

namespace Datagram

/-- What a datagram is about. -/
inductive Kind where
  | firmwareMetadata
  | firmwareChunk
  | updateRequest
  | updateResponse
  | verification
  | acknowledgement
  | jumpToApp
  | error
  deriving DecidableEq, Inhabited

namespace Kind

def code : Kind → UInt8
  | firmwareMetadata => 0
  | firmwareChunk => 1
  | updateRequest => 2
  | updateResponse => 3
  | verification => 4
  | acknowledgement => 5
  | jumpToApp => 6
  | error => 7

def ofCode : UInt8 → Except Fault Kind
  | 0 => .ok firmwareMetadata
  | 1 => .ok firmwareChunk
  | 2 => .ok updateRequest
  | 3 => .ok updateResponse
  | 4 => .ok verification
  | 5 => .ok acknowledgement
  | 6 => .ok jumpToApp
  | 7 => .ok error
  | _ => .error .invalidPacket

def name : Kind → String
  | firmwareMetadata => "FirmwareMetadata"
  | firmwareChunk => "FirmwareChunk"
  | updateRequest => "UpdateRequest"
  | updateResponse => "UpdateResponse"
  | verification => "Verification"
  | acknowledgement => "Acknowledgement"
  | jumpToApp => "JumpToApp"
  | error => "Error"

end Kind

/-- Largest payload of a datagram. -/
def maxSize : Nat := 2048

/-- Most data packets a datagram takes. -/
def maxDataPackets : Nat := maxSize / Packet.payloadSize

/-- Data packets needed for `n` bytes. -/
def packetsFor (n : Nat) : Nat :=
  (n + 127) / 128

structure Header where
  kind : Kind := .firmwareMetadata
  id : UInt32 := 0
  /-- Payload bytes. -/
  total : UInt32 := 0
  /-- Data packets; the header packet is not counted. -/
  packets : UInt16 := 0
  crc : UInt32 := 0
  target : Option UInt8 := none
  deriving DecidableEq, Inhabited

namespace Header

/-- Bytes of an encoded header. -/
def size : Nat := 17

/-- The flag and the node byte. -/
def encodeTarget : Option UInt8 → Bytes
  | some node => [1, node]
  | none => [0, 0]

def encode (header : Header) : Bytes :=
  header.kind.code :: (LittleEndian.encode32 header.id ++
    (LittleEndian.encode32 header.total ++ (LittleEndian.encode16 header.packets ++
      (LittleEndian.encode32 header.crc ++ encodeTarget header.target))))

/-- Reads a header from the first 17 bytes. -/
def decode (bytes : Bytes) : Except Fault Header :=
  if bytes.length < size then .error .invalidPacket
  else do
    -- A bad flag and a bad kind are the same fault, so which comes first cannot be told.
    let target ← match bytes.byteAt 15 with
      | 0 => .ok none
      | 1 => .ok (some (bytes.byteAt 16))
      | _ => .error .invalidPacket
    let kind ← Kind.ofCode (bytes.byteAt 0)
    .ok {
      kind
      id := LittleEndian.word32At bytes 1
      total := LittleEndian.word32At bytes 5
      packets := LittleEndian.word16At bytes 9
      crc := LittleEndian.word32At bytes 11
      target }

/-- Checks that the announced payload fits and comes in as many packets as it needs. -/
def check (header : Header) : Except Fault Unit :=
  if header.total.toNat > maxSize ∨ header.packets.toNat > maxDataPackets then
    .error .resourceExhausted
  else if header.packets.toNat ≠ packetsFor header.total.toNat then .error .invalidPacket
  else .ok ()

@[simp] theorem length_encode (header : Header) : header.encode.length = size := by
  cases h : header.target <;> simp [encode, encodeTarget, h, size]

end Header

end Datagram

end Reflash
