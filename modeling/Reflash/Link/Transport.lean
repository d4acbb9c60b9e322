/-
  Reflash.Link.Transport

  What a byte link offers: reads that give some of the bytes at hand, writes that
  take some of the bytes offered, and a flush. A transport holds a bounded supply
  of bytes, and every byte read is taken out of it; this is what ends the loops
  over a link.
-/
import Reflash.Bytes.LittleEndian

namespace Reflash

/-- Why a link operation failed. -/
inductive LinkError where
  | timedOut
  | interrupted
  | brokenPipe
  | outOfMemory
  | unsupported
  | connectionReset
  | other
  deriving DecidableEq, Inhabited

namespace LinkError

def name : LinkError → String
  | timedOut => "TimedOut"
  | interrupted => "Interrupted"
  | brokenPipe => "BrokenPipe"
  | outOfMemory => "OutOfMemory"
  | unsupported => "Unsupported"
  | connectionReset => "ConnectionReset"
  | other => "Other"

/-- The error with the given name; any other name stands for `other`. -/
def ofName (text : String) : LinkError :=
  ([timedOut, interrupted, brokenPipe, outOfMemory, unsupported, connectionReset].find?
    fun error => error.name == text).getD other

end LinkError

/-- How many bytes a read gave. -/
def bytesGiven {ε : Type} : Except ε Bytes → Nat
  | .ok bytes => bytes.length
  | .error _ => 0

/-- A byte link of type `τ`. -/
class Transport (τ : Type) where
  /-- Reads up to so many bytes. No bytes and no error means that the stream ran dry. -/
  read : Nat → τ → Except LinkError Bytes × τ
  /-- Offers bytes and tells how many of them were taken. -/
  write : Bytes → τ → Except LinkError Nat × τ
  flush : τ → Except LinkError Unit × τ
  /-- A bound on the bytes that reads can still give. -/
  supply : τ → Nat
  /-- What is read is taken out of the supply. -/
  supply_read : ∀ (n : Nat) (link : τ),
    supply (read n link).2 + bytesGiven (read n link).1 ≤ supply link

namespace Transport

variable {τ : Type} [Transport τ]

/-- Writes all of `bytes`, in as many writes as it takes. A write that takes nothing counts as
a failure. -/
def writeAll (bytes : Bytes) (link : τ) : Except LinkError Unit × τ :=
  if _h : bytes.length = 0 then (.ok (), link)
  else match write bytes link with
    | (.error error, link) => (.error error, link)
    | (.ok 0, link) => (.error .other, link)
    | (.ok (n + 1), link) => writeAll (bytes.drop (n + 1)) link
termination_by bytes.length
decreasing_by simp; omega

/-- Writes several blocks in order, stopping at the first failure. -/
def writeEach : List Bytes → τ → Except LinkError Unit × τ
  | [], link => (.ok (), link)
  | block :: blocks, link =>
    match writeAll block link with
    | (.error error, link) => (.error error, link)
    | (.ok (), link) => writeEach blocks link

end Transport

end Reflash
