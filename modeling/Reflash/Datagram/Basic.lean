/-
  Reflash.Datagram.Basic

  A datagram is a header and one slot per data packet. Slot `n` holds what
  packet `n + 1` carried, or nothing yet. A datagram made here for sending has
  every slot filled; one under reassembly fills up packet by packet.
-/
import Reflash.Datagram.Header

namespace Reflash

structure Datagram where
  header : Datagram.Header := {}
  slots : List (Option Bytes) := []
  deriving DecidableEq, Inhabited

namespace Datagram

/-! ## Views -/

def kind (datagram : Datagram) : Kind := datagram.header.kind

def id (datagram : Datagram) : UInt32 := datagram.header.id

/-- The bytes one slot stands for: what was received, then zeros. -/
def slotBytes (slot : Option Bytes) : Bytes :=
  Bytes.padTo 128 (slot.getD [])

/-- The payload, as long as the header says. Gaps read as zeros. -/
def data (datagram : Datagram) : Bytes :=
  (datagram.slots.flatMap slotBytes).take datagram.header.total.toNat

/-- Slots filled so far. -/
def received (datagram : Datagram) : Nat :=
  datagram.slots.countP Option.isSome

/-- Packets on the wire, header included. -/
def packetCount (datagram : Datagram) : Nat :=
  datagram.header.packets.toNat + 1

/-! ## Building -/

/-- The datagram that carries `data`. -/
def pack (kind : Kind) (id : UInt32) (target : Option UInt8) (data : Bytes) : Datagram where
  header := {
    kind, id, target
    total := .ofNat data.length
    packets := .ofNat (packetsFor data.length)
    crc := Crc32.padded data }
  slots := (data.pieces 128).map some

/-- The datagram that carries `data`, refused when it does not fit. -/
def compose (kind : Kind) (id : UInt32) (target : Option UInt8) (data : Bytes) :
    Except Fault Datagram :=
  if data.length > maxSize then .error .invalidArgs else .ok (pack kind id target data)

/-- The datagram a header announces, with nothing received yet. -/
def awaiting (header : Header) : Datagram where
  header := header
  slots := List.replicate header.packets.toNat none

/-! ## Splitting -/

/-- The packet that announces the datagram. -/
def headerPacket (datagram : Datagram) : Packet :=
  ({ Packet.blank with kind := .header, id := datagram.id }.carrying
    datagram.header.encode).sealed

/-- Data packet `sequence`, counted from one. -/
def dataPacket (datagram : Datagram) (sequence : Nat) : Packet :=
  ({ Packet.blank with kind := .data, id := datagram.id, sequence := .ofNat sequence }.carrying
    ((datagram.data.drop ((sequence - 1) * 128)).take 128)).sealed

/-- The packet with the given sequence number; number zero is the header packet. -/
def packetAt (datagram : Datagram) (sequence : Nat) : Packet :=
  if sequence = 0 then datagram.headerPacket else datagram.dataPacket sequence

/-- `packetAt`, refused beyond the last packet. -/
def packet (datagram : Datagram) (sequence : Nat) : Except Fault Packet :=
  if sequence ≥ datagram.packetCount then .error .invalidArgs
  else .ok (datagram.packetAt sequence)

/-- Every packet, header first. -/
def packets (datagram : Datagram) : List Packet :=
  (List.range datagram.packetCount).map datagram.packetAt

/-- Every packet, refused when there is room for fewer. -/
def packetsWithin (room : Nat) (datagram : Datagram) : Except Fault (List Packet) :=
  if room < datagram.packetCount then .error .invalidArgs else .ok datagram.packets

/-- Every frame, header first. -/
def frames (datagram : Datagram) : List Bytes :=
  datagram.packets.map Packet.toFrame

end Datagram

end Reflash
