/-
  Reflash.Link.Loopback

  A link held in memory, with room for so many bytes each way. Bytes fed in wait to
  be read, bytes written wait to be looked at. Reading an empty link times out.
-/
import Reflash.Link.Transport

namespace Reflash

structure Loopback where
  /-- Bytes of room, for those waiting to be read and again for those written. -/
  capacity : Nat
  incoming : Bytes := []
  outgoing : Bytes := []
  deriving DecidableEq, Inhabited

namespace Loopback

/-- Queues bytes for the reader. What does not fit is dropped. -/
def feed (link : Loopback) (bytes : Bytes) : Loopback :=
  { link with incoming := link.incoming ++ bytes.take (link.capacity - link.incoming.length) }

/-- Forgets what was written. -/
def clearSent (link : Loopback) : Loopback :=
  { link with outgoing := [] }

def read (n : Nat) (link : Loopback) : Except LinkError Bytes × Loopback :=
  if n = 0 then (.ok [], link)
  else if link.incoming.isEmpty then (.error .timedOut, link)
  else (.ok (link.incoming.take n), { link with incoming := link.incoming.drop n })

/-- Takes all of the bytes, or none when they do not fit. -/
def write (bytes : Bytes) (link : Loopback) : Except LinkError Nat × Loopback :=
  if link.outgoing.length + bytes.length > link.capacity then (.error .outOfMemory, link)
  else (.ok bytes.length, { link with outgoing := link.outgoing ++ bytes })

theorem supply_read (n : Nat) (link : Loopback) :
    (read n link).2.incoming.length + bytesGiven (read n link).1 ≤ link.incoming.length := by
  unfold read
  split
  · simp [bytesGiven]
  · split
    · simp [bytesGiven]
    · simp [bytesGiven]; omega

instance : Transport Loopback where
  read := read
  write := write
  flush link := (.ok (), link)
  supply link := link.incoming.length
  supply_read := supply_read

end Loopback

end Reflash
