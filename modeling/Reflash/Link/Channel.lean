/-
  Reflash.Link.Channel

  What can happen to bytes between two ends of a link: frames lost, repeated or
  reordered, single bytes damaged, the end cut off, and foreign bytes in front or
  behind.
-/
import Reflash.Packet

namespace Reflash

/-- Damage done to one transmission. -/
structure Damage where
  /-- The frames that come through, in the order they come. -/
  order? : Option (List Nat) := none
  /-- Places and the bits flipped there. -/
  flips : List (Nat × UInt8) := []
  /-- How many bytes come through. -/
  keep? : Option Nat := none
  before : Bytes := []
  behind : Bytes := []
  deriving Inhabited

namespace Damage

/-- The frames of a transmission that come through. -/
def reorder (order : List Nat) (bytes : Bytes) : Bytes :=
  let frames := bytes.pieces Packet.frameSize
  (order.filterMap fun i => frames[i]?).flatten

/-- Flips bits of one byte, if it is there. -/
def flip (bytes : Bytes) (place : Nat × UInt8) : Bytes :=
  bytes.modify place.1 (· ^^^ place.2)

/-- What comes through of a transmission. -/
def apply (bytes : Bytes) (damage : Damage) : Bytes :=
  let bytes := match damage.order? with
    | some order => reorder order bytes
    | none => bytes
  let bytes := damage.flips.foldl flip bytes
  let bytes := match damage.keep? with
    | some n => bytes.take n
    | none => bytes
  damage.before ++ bytes ++ damage.behind

end Damage

end Reflash
