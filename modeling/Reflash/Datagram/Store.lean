/-
  Reflash.Datagram.Store

  A datagram as it lies in memory. Its header, 2048 bytes of payload, a table that says
  which packets are in and the number of those that are stand side by side, and each
  step keeps them by itself. A step that had an index out of range would have no result;
  an offset that is looked up is refused when it is.
-/
import Reflash.Datagram.Assembly

namespace Reflash

/-- The bytes from `first` up to `last`, where there are such. -/
def Bytes.slice? (bytes : Bytes) (first last : Nat) : Option Bytes :=
  if first ≤ last ∧ last ≤ bytes.length then some ((bytes.take last).drop first) else none

structure Store where
  header : Datagram.Header := {}
  data : Vector UInt8 2048 := Vector.replicate 2048 0
  /-- Which packets are in; the header is packet zero. -/
  received : Vector Bool 17 := Vector.replicate 17 false
  /-- How many data packets are in. -/
  count : UInt16 := 0
  /-- Whether there is a datagram at all. -/
  underWay : Bool := false
  deriving DecidableEq

namespace Store

/-- Nothing is in. -/
def blank : Store := {}

/-! ## Building -/

/-- Puts bytes at `offset`, where they fit. -/
def place? (data : Vector UInt8 2048) (offset : Nat) (bytes : Bytes) :
    Option (Vector UInt8 2048) :=
  if offset + bytes.length ≤ 2048 then
    some (Vector.ofFn fun i => if offset ≤ i.val ∧ i.val < offset + bytes.length
      then bytes.byteAt (i.val - offset) else data[i])
  else none

/-- Marks packets up to `last`. -/
def markUpTo? (received : Vector Bool 17) (last : Nat) : Option (Vector Bool 17) :=
  if last < 17 then some (Vector.ofFn fun s => decide (s.val ≤ last) || received[s]) else none

/-- The datagram that carries `data`, refused when it does not fit. -/
def compose (kind : Datagram.Kind) (id : UInt32) (data : Bytes) : Option (Except Fault Store) :=
  if data.length > Datagram.maxSize then some (.error .invalidArgs)
  else do
    let content ← place? blank.data 0 data
    let received ← markUpTo? blank.received (Datagram.packetsFor data.length)
    some (.ok {
      header := {
        kind, id
        total := .ofNat data.length
        packets := .ofNat (Datagram.packetsFor data.length)
        crc := Crc32.padded data }
      data := content
      received
      count := .ofNat (Datagram.packetsFor data.length)
      underWay := true })

/-- A datagram of which the header is in. -/
def announced (header : Datagram.Header) : Store :=
  { blank with header, received := blank.received.set 0 true, underWay := true }

/-- Addresses a datagram to one node. -/
def addressed (store : Store) (node : UInt8) : Store :=
  { store with header.target := some node }

/-! ## Views -/

/-- Whether packet `s` is in. -/
def has (store : Store) (s : Nat) : Bool :=
  store.received[s]?.getD false

/-- The 128 bytes that data packet `s` goes to. -/
def slot (store : Store) (s : Nat) : Bytes :=
  (store.data.toList.drop ((s - 1) * 128)).take 128

/-- The payload, as long as the header says. -/
def contents? (store : Store) : Option Bytes :=
  Bytes.slice? store.data.toList 0 (min store.header.total.toNat 2048)

/-- The part of the payload that data packet `s` is sent with. -/
def piece? (store : Store) (s : Nat) : Option Bytes := do
  let contents ← store.contents?
  Bytes.slice? contents ((s - 1) * 128) (min ((s - 1) * 128 + 128) contents.length)

def isComplete (store : Store) : Bool :=
  store.underWay && store.count == store.header.packets

/-! ## Packets -/

/-- The part of a packet's payload in use. -/
def used? (packet : Packet) : Option Bytes :=
  Bytes.slice? packet.payload 0 (min packet.length.toNat Packet.payloadSize)

/-- Reads a header: all that is looked at are its first 17 bytes. -/
def decode? (bytes : Bytes) : Option (Except Fault Datagram.Header) :=
  if bytes.length < Datagram.Header.size then some (.error .invalidPacket)
  else (Bytes.slice? bytes 0 Datagram.Header.size).map Datagram.Header.decode

/-- Applies a header packet. -/
def acceptHeader (store : Store) (packet : Packet) : Option (Except Fault Unit × Store) := do
  let decoded ← decode? (← used? packet)
  match decoded with
  | .error fault => some (.error fault, store)
  | .ok header =>
    if store.underWay ∧ store.header.id = header.id then some (.ok (), store)
    else match header.check with
      | .error fault => some (.error fault, store)
      | .ok () => some (.ok (), announced header)

/-- Applies a data packet. -/
def acceptData (store : Store) (packet : Packet) : Option (Except Fault Unit × Store) :=
  let sequence := packet.sequence.toNat
  if store.underWay = false ∨ packet.id ≠ store.header.id then some (.error .internalError, store)
  else if sequence = 0 ∨ sequence > store.header.packets.toNat then
    some (.error .internalError, store)
  else if store.received[sequence]? = some false then do
    let payload ← used? packet
    -- The place is looked up before anything is put there.
    match place? store.data ((sequence - 1) * 128) payload with
    | none => some (.error .internalError, store)
    | some data => some (.ok (), { store with
        data
        received := store.received.setIfInBounds sequence true
        count := store.count + 1 })
  -- The slot is filled already, or there is no such slot.
  else some (.error .internalError, store)

end Store

end Reflash
