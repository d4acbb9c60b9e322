/-
  Reflash.Packet

  The wire frame, 142 bytes however little it carries:

      0        start marker
      1        kind
      2 - 5    message id
      6        sequence
      7 - 8    bytes of payload in use
      9 - 136  payload
      137-140  checksum of the payload in use, in whole words
      141      end marker

  Words are little-endian. Reading a frame does not check its checksum; that is
  `Packet.verify`.
-/
import Reflash.Checksum.Crc32
import Reflash.Fault

namespace Reflash

/-- What a packet is for. Only data and header packets are reassembled. -/
inductive PacketKind where
  | data
  | header
  | ack
  | nack
  | error
  deriving DecidableEq, Inhabited

namespace PacketKind

def code : PacketKind → UInt8
  | data => 0
  | header => 1
  | ack => 2
  | nack => 3
  | error => 4

def ofCode : UInt8 → Except Fault PacketKind
  | 0 => .ok data
  | 1 => .ok header
  | 2 => .ok ack
  | 3 => .ok nack
  | 4 => .ok error
  | _ => .error .invalidPacket

def name : PacketKind → String
  | data => "Data"
  | header => "Header"
  | ack => "Ack"
  | nack => "Nack"
  | error => "Error"

end PacketKind

/-- One packet. The payload area always has its full size; `length` says how much of it is
used, and nothing keeps a sender from announcing more than fits. -/
structure Packet where
  kind : PacketKind
  id : UInt32
  sequence : UInt8
  length : UInt16
  payload : Bytes
  crc : UInt32
  payload_length : payload.length = 128
  deriving DecidableEq

namespace Packet

/-! ## Sizes and markers -/

/-- Payload bytes in a packet. -/
def payloadSize : Nat := 128

/-- Bytes of a frame on the wire. -/
def frameSize : Nat := 142

/-- First byte of every frame. -/
def startMarker : UInt8 := 0xAA

/-- Last byte of every frame. -/
def endMarker : UInt8 := 0xBB

/-! ## Building -/

/-- A packet of zeros without a checksum. -/
def blank : Packet where
  kind := .data
  id := 0
  sequence := 0
  length := 0
  payload := List.replicate 128 0
  crc := 0
  payload_length := by simp

instance : Inhabited Packet := ⟨blank⟩

/-- A packet of zeros that announces `length` bytes of payload. -/
def new (kind : PacketKind) (sequence : UInt8) (length : UInt16) : Except Fault Packet :=
  if length.toNat > payloadSize then .error .invalidArgs
  else .ok { blank with kind, sequence, length }

/-- The packet carrying `data`, as far as it fits. -/
def carrying (packet : Packet) (data : Bytes) : Packet :=
  { packet with
    length := .ofNat (min data.length payloadSize)
    payload := data.padTo 128
    payload_length := by simp }

/-- Replaces the payload and its length; the checksum stays as it was. -/
def setPayload (packet : Packet) (data : Bytes) : Except Fault Packet :=
  if data.length > payloadSize then .error .invalidArgs else .ok (packet.carrying data)

/-- The part of the payload in use. -/
def used (packet : Packet) : Bytes :=
  packet.payload.take packet.length.toNat

/-! ## Checksum -/

/-- The checksum of as many words as the announced length needs. Words beyond the payload
area count as zero. -/
def payloadCrc (packet : Packet) : UInt32 :=
  Crc32.ofWords packet.payload (Crc32.wordsFor packet.length.toNat)

/-- Stores the checksum of the payload. -/
def sealed (packet : Packet) : Packet :=
  { packet with crc := packet.payloadCrc }

def verify (packet : Packet) : Except Fault Unit :=
  if packet.payloadCrc = packet.crc then .ok () else .error .crcMismatch

/-! ## Wire form -/

/-- The frame of a packet. -/
def toFrame (packet : Packet) : Bytes :=
  startMarker :: packet.kind.code :: (LittleEndian.encode32 packet.id ++
    packet.sequence :: (LittleEndian.encode16 packet.length ++ (packet.payload ++
      (LittleEndian.encode32 packet.crc ++ [endMarker]))))

/-- Writes the frame over the start of `buffer`, which keeps what lies behind it. -/
def writeTo (packet : Packet) (buffer : Bytes) : Except Fault Bytes :=
  if buffer.length < frameSize then .error .invalidArgs
  else .ok (packet.toFrame ++ buffer.drop frameSize)

/-- Reads the packet from the first 142 bytes. -/
def ofFrame (bytes : Bytes) : Except Fault Packet :=
  if bytes.length < frameSize then .error .invalidArgs
  else if bytes.byteAt 0 ≠ startMarker ∨ bytes.byteAt 141 ≠ endMarker then .error .invalidPacket
  else do
    let kind ← PacketKind.ofCode (bytes.byteAt 1)
    let length := LittleEndian.word16At bytes 7
    if length.toNat > payloadSize then .error .invalidPacket
    else .ok {
      kind
      id := LittleEndian.word32At bytes 2
      sequence := bytes.byteAt 6
      length
      payload := Bytes.padTo 128 (bytes.drop 9)
      crc := LittleEndian.word32At bytes 137
      payload_length := by simp }

theorem length_toFrame (packet : Packet) : packet.toFrame.length = frameSize := by
  simp [toFrame, frameSize, packet.payload_length]

end Packet

end Reflash
