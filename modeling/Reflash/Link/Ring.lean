/-
  Reflash.Link.Ring

  The receive queue between a link driver and the polling loop, and the reader
  that takes bytes out of it. The queue is first in, first out; a ring of `size`
  places holds `size - 1` bytes. Bytes go in and come out one at a time, so the
  driver may push in the middle of a read. The reader waits a limited time for a
  first byte, measured on a clock that moves by a fixed step whenever it is read.
-/
import Reflash.Fault
import Reflash.Link.Loopback

namespace Reflash

structure Ring where
  size : Nat
  queued : Bytes := []
  deriving DecidableEq, Inhabited

namespace Ring

/-- Bytes the ring holds at most. -/
def capacity (ring : Ring) : Nat := ring.size - 1

/-- Bytes waiting to be read. -/
def available (ring : Ring) : Nat := ring.queued.length

/-- Bytes that can still be pushed. -/
def freeSpace (ring : Ring) : Nat := ring.capacity - ring.queued.length

/-- Queues one byte; a full ring drops it. -/
def push (ring : Ring) (byte : UInt8) : Except Fault Unit × Ring :=
  if ring.queued.length < ring.capacity then
    (.ok (), { ring with queued := ring.queued ++ [byte] })
  else (.error .resourceExhausted, ring)

/-- Queues byte after byte. The first that finds the ring full is dropped, and all behind it. -/
def pushAll : Ring → Bytes → Except Fault Unit × Ring
  | ring, [] => (.ok (), ring)
  | ring, byte :: bytes =>
    match ring.push byte with
    | (.error fault, ring) => (.error fault, ring)
    | (.ok (), ring) => pushAll ring bytes

/-- The byte that is read next. -/
def peek? (ring : Ring) : Option UInt8 := ring.queued.head?

/-- Takes out the byte that is read next. -/
def pop (ring : Ring) : Option UInt8 × Ring :=
  (ring.peek?, { ring with queued := ring.queued.tail })

theorem available_pop_lt {ring : Ring} {byte : UInt8} (h : ring.peek? = some byte) :
    ring.pop.2.available < ring.available := by
  obtain ⟨rest, hqueued⟩ := List.head?_eq_some_iff.1 h
  simp [available, pop, hqueued]

/-- Takes out bytes that are queued, at most `n` of them. -/
def popUpTo : Nat → Ring → Bytes × Ring
  | 0, ring => ([], ring)
  | n + 1, ring =>
    match ring.pop with
    | (none, ring) => ([], ring)
    | (some byte, ring) =>
      let (bytes, ring) := popUpTo n ring
      (byte :: bytes, ring)

/-- Drops byte after byte until the next is a `marker`, and counts them on top of `dropped`. -/
def discard (marker : UInt8) (dropped : Nat) (ring : Ring) : Nat × Ring :=
  match _h : ring.peek? with
  | none => (dropped, ring)
  | some byte =>
    if byte = marker then (dropped, ring) else discard marker (dropped + 1) ring.pop.2
termination_by ring.available
decreasing_by exact available_pop_lt _h

/-- Drops bytes up to the next `marker`, and tells how many. -/
def discardUntil (ring : Ring) (marker : UInt8) : Nat × Ring :=
  ring.discard marker 0

/-! Taking bytes out one by one takes them from the front. -/

theorem popUpTo_eq (n : Nat) (ring : Ring) :
    ring.popUpTo n = (ring.queued.take n, { ring with queued := ring.queued.drop n }) := by
  induction n generalizing ring with
  | zero => rfl
  | succ n ih =>
    obtain ⟨size, queued⟩ := ring
    cases queued with
    | nil => rfl
    | cons byte queued => simp [popUpTo, pop, peek?, ih]

/-- What is dropped is all that is in front of the first marker. -/
theorem discard_eq (marker : UInt8) (dropped : Nat) (ring : Ring) :
    ring.discard marker dropped
      = (dropped + (ring.queued.takeWhile (· ≠ marker)).length,
        { ring with queued := ring.queued.dropWhile (· ≠ marker) }) := by
  obtain ⟨size, queued⟩ := ring
  induction queued generalizing dropped with
  | nil =>
    rw [discard]
    rfl
  | cons byte queued ih =>
    rw [discard]
    show (if byte = marker then _ else discard marker (dropped + 1) ⟨size, queued⟩) = _
    by_cases h : byte = marker
    · simp [h]
    · simp [h, ih]
      omega

theorem discardUntil_eq (ring : Ring) (marker : UInt8) :
    ring.discardUntil marker
      = ((ring.queued.takeWhile (· ≠ marker)).length,
        { ring with queued := ring.queued.dropWhile (· ≠ marker) }) := by
  rw [discardUntil, discard_eq, Nat.zero_add]

end Ring

/-- A clock in milliseconds that moves on by `step` after each reading. -/
structure Clock where
  now : Nat := 0
  step : Nat := 0
  deriving DecidableEq, Inhabited

namespace Clock

/-- Reads the clock. -/
def read (clock : Clock) : Nat × Clock :=
  (clock.now, { clock with now := clock.now + clock.step })

/-- Readings until `limit` milliseconds have gone by since the first, which is not counted: at
least one, and as many steps as fill the limit. -/
def readingsUntil (clock : Clock) (limit : Nat) : Nat :=
  max 1 ((limit + clock.step - 1) / clock.step)

/-- The clock after waiting in vain for `limit` milliseconds. -/
def await (clock : Clock) (limit : Nat) : Clock :=
  { clock with now := clock.now + (clock.readingsUntil limit + 1) * clock.step }

end Clock

/-- A ring with its reader's clock and time limit. -/
structure RingReader where
  ring : Ring
  clock : Clock := {}
  /-- How long a read waits for its first byte, in milliseconds. -/
  limit : Nat := 10
  deriving DecidableEq, Inhabited

namespace RingReader

/-- Waits for a first byte, then takes what is queued without waiting further. -/
def read (n : Nat) (reader : RingReader) : Except LinkError Bytes × RingReader :=
  if n = 0 then (.ok [], reader)
  else match reader.ring.pop with
    | (none, _) => (.error .timedOut, { reader with clock := reader.clock.await reader.limit })
    | (some first, ring) =>
      let (bytes, ring) := ring.popUpTo (n - 1)
      (.ok (first :: bytes), { reader with ring, clock := reader.clock.read.2 })

/-- Nothing comes of an empty ring but the end of the wait. -/
theorem read_nil {n : Nat} {reader : RingReader} (hn : 0 < n) (hnil : reader.ring.queued = []) :
    reader.read n
      = (.error .timedOut, { reader with clock := reader.clock.await reader.limit }) := by
  rw [read, if_neg (Nat.ne_of_gt hn)]
  simp [Ring.pop, Ring.peek?, hnil]

/-- A read takes all that is queued, as far as it asks for it. -/
theorem read_queued {n : Nat} {reader : RingReader} (hn : 0 < n)
    (hne : reader.ring.queued ≠ []) :
    reader.read n = (.ok (reader.ring.queued.take n), { reader with
      ring.queued := reader.ring.queued.drop n
      clock := reader.clock.read.2 }) := by
  obtain ⟨byte, queued, hqueued⟩ := List.exists_cons_of_ne_nil hne
  obtain ⟨n, rfl⟩ := Nat.exists_eq_add_of_lt hn
  rw [read, if_neg (Nat.ne_of_gt hn)]
  simp [Ring.pop, Ring.peek?, Ring.popUpTo_eq, hqueued]

theorem length_queued_read (n : Nat) (reader : RingReader) :
    (reader.read n).2.ring.queued.length + bytesGiven (reader.read n).1
      ≤ reader.ring.queued.length := by
  by_cases hn : n = 0
  · simp [read, hn, bytesGiven]
  · by_cases hnil : reader.ring.queued = []
    · simp [read_nil (Nat.pos_of_ne_zero hn) hnil, bytesGiven]
    · simp [read_queued (Nat.pos_of_ne_zero hn) hnil, bytesGiven]
      omega

end RingReader

/-- A ring reader paired with a writer. -/
structure RingLink where
  reader : RingReader
  writer : Loopback
  deriving DecidableEq, Inhabited

namespace RingLink

instance : Transport RingLink where
  read n link := ((link.reader.read n).1, { link with reader := (link.reader.read n).2 })
  write bytes link :=
    ((Transport.write bytes link.writer).1,
      { link with writer := (Transport.write bytes link.writer).2 })
  flush link :=
    ((Transport.flush link.writer).1, { link with writer := (Transport.flush link.writer).2 })
  supply link := link.reader.ring.queued.length
  supply_read n link := RingReader.length_queued_read n link.reader

end RingLink

end Reflash
