/-
  Reflash.Datagram.Assembly

  Putting a datagram together from packets. There is one datagram under way, or
  none. A header for another id starts over, the header of the datagram under
  way changes nothing, and data packets fill the slots in whatever order they
  come. A packet that is refused leaves everything as it was.
-/
import Reflash.Datagram.Basic

namespace Reflash

/-- The datagram under way, if any. -/
abbrev Assembly := Option Datagram

namespace Assembly

/-- The datagram under way, or an empty one. -/
def datagram (assembly : Assembly) : Datagram :=
  assembly.getD {}

/-- Whether a datagram with this id is under way. -/
def holds (assembly : Assembly) (id : UInt32) : Bool :=
  assembly.any fun datagram => datagram.header.id == id

/-- Applies a header packet. -/
def acceptHeader (assembly : Assembly) (packet : Packet) : Except Fault Assembly := do
  let header ← Datagram.Header.decode packet.used
  -- A header sent again must not cost the packets that have come since the first.
  if assembly.holds header.id then .ok assembly
  else do
    header.check
    .ok (some (.awaiting header))

/-- Applies a data packet. -/
def acceptData (assembly : Assembly) (packet : Packet) : Except Fault Assembly :=
  match assembly with
  | none => .error .internalError
  | some datagram =>
    if packet.id ≠ datagram.header.id then .error .internalError
    else if packet.sequence = 0 then .error .internalError
    else match datagram.slots[packet.sequence.toNat - 1]? with
      | some none =>
        .ok (some { datagram with
          slots := datagram.slots.set (packet.sequence.toNat - 1) (some packet.used) })
      -- The slot is filled already, or there is no such slot.
      | _ => .error .internalError

/-- Whether the header and every data packet are in. -/
def isComplete (assembly : Assembly) : Bool :=
  assembly.any fun datagram => datagram.slots.all Option.isSome

/-- Checks the payload of a complete datagram against the checksum in its header. -/
def verify (assembly : Assembly) : Except Fault Unit :=
  if !assembly.isComplete then .error .internalError
  else if Crc32.padded assembly.datagram.data = assembly.datagram.header.crc then .ok ()
  else .error .crcMismatch

end Assembly

end Reflash
