/-
  Reflash.Proofs.Passage

  The ring between a link driver and the polling loop loses nothing and changes no
  order. Driver and loop take turns in any order: bytes are pushed one by one or in
  slices, read in any number, or dropped up to a marker. All the while the bytes that
  found room are those that went out again, in order, and behind them those that still
  wait. A slice goes in as far as there is room, a read takes all that is there, and what
  is dropped ends at the first marker, at no byte sooner or later.
-/
import Reflash.Link.Ring
import Mathlib.Data.List.TakeWhile

namespace Reflash

namespace Ring

variable {ring : Ring}

/-! ## One operation -/

theorem push_of_lt (h : ring.available < ring.capacity) (byte : UInt8) :
    ring.push byte = (.ok (), { ring with queued := ring.queued ++ [byte] }) :=
  if_pos h

theorem push_of_full (h : ring.capacity ≤ ring.available) (byte : UInt8) :
    ring.push byte = (.error .resourceExhausted, ring) :=
  if_neg (Nat.not_lt.2 h)

/-- Of a slice goes in what there is room for, and it fails if that is not all. -/
theorem pushAll_eq (ring : Ring) (bytes : Bytes) :
    ring.pushAll bytes
      = (if bytes.length ≤ ring.freeSpace then .ok () else .error .resourceExhausted,
        { ring with queued := ring.queued ++ bytes.take ring.freeSpace }) := by
  -- By induction on the slice: each byte takes one place, until there is none.
  induction bytes generalizing ring with
  | nil => simp [pushAll]
  | cons byte bytes ih =>
    by_cases h : ring.available < ring.capacity
    · have hroom : ring.freeSpace
          = freeSpace { ring with queued := ring.queued ++ [byte] } + 1 := by
        simp [freeSpace, available] at h ⊢
        simp [capacity] at h ⊢
        omega
      simp [pushAll, push_of_lt h, ih, hroom]
    · have hfull : ring.freeSpace = 0 := by
        rw [freeSpace]
        exact Nat.sub_eq_zero_of_le (Nat.not_lt.1 h)
      simp [pushAll, push_of_full (Nat.not_lt.1 h), hfull]

end Ring

/-- The reader when the clock has moved on. -/
def RingReader.withClock (reader : RingReader) (clock : Clock) : RingReader :=
  { reader with clock }

/-! ## Any run -/

/-- A reader of a ring, the bytes that found room in the ring, and the bytes that came out of it by
being read or dropped. -/
structure Passage where
  reader : RingReader
  entered : Bytes := []
  left : Bytes := []

namespace Passage

/-- A new ring of `size` places. -/
def start (size : Nat) : Passage where
  reader := { ring := { size } }

/-- What driver and polling loop do with a ring. -/
inductive Operation where
  | push (byte : UInt8)
  | pushAll (bytes : Bytes)
  /-- A read of at most `n` bytes, and what the clock shows when it begins. -/
  | read (n : Nat) (clock : Clock)
  | discardUntil (marker : UInt8)
  /-- One byte taken out in the course of a read or a discard, between two of which the driver may
  push. -/
  | pop

def step (passage : Passage) : Operation → Passage
  | .push byte => { passage with
      reader.ring := (passage.reader.ring.push byte).2
      entered := passage.entered ++ match (passage.reader.ring.push byte).1 with
        | .ok () => [byte]
        | .error _ => [] }
  | .pushAll bytes => { passage with
      reader.ring := (passage.reader.ring.pushAll bytes).2
      entered := passage.entered ++ bytes.take passage.reader.ring.freeSpace }
  | .read n clock => { passage with
      reader := ((passage.reader.withClock clock).read n).2
      left := passage.left ++ match ((passage.reader.withClock clock).read n).1 with
        | .ok bytes => bytes
        | .error _ => [] }
  | .discardUntil marker => { passage with
      reader.ring := (passage.reader.ring.discardUntil marker).2
      left := passage.left
        ++ passage.reader.ring.queued.take (passage.reader.ring.discardUntil marker).1 }
  | .pop => { passage with
      reader.ring := passage.reader.ring.pop.2
      left := passage.left ++ passage.reader.ring.pop.1.toList }

def run (passage : Passage) (operations : List Operation) : Passage :=
  operations.foldl step passage

/-- Every byte that entered a ring of `size` places has left it or waits in it, in order, and no
more wait than find room. -/
structure Lossless (size : Nat) (passage : Passage) : Prop where
  size_eq : passage.reader.ring.size = size
  bytes_eq : passage.entered = passage.left ++ passage.reader.ring.queued
  fits : passage.reader.ring.queued.length ≤ size - 1

variable {size : Nat} {passage : Passage}

theorem start_lossless (size : Nat) : (start size).Lossless size :=
  ⟨rfl, rfl, Nat.zero_le _⟩

theorem Lossless.capacity_eq (h : passage.Lossless size) :
    passage.reader.ring.capacity = size - 1 := by
  rw [Ring.capacity, h.size_eq]

theorem Lossless.freeSpace_add_available (h : passage.Lossless size) :
    passage.reader.ring.freeSpace + passage.reader.ring.available = size - 1 := by
  rw [Ring.freeSpace, h.capacity_eq]
  exact Nat.sub_add_cancel h.fits

/-- More bytes at the end of the ring. -/
theorem Lossless.enter (h : passage.Lossless size) {bytes : Bytes}
    (hroom : bytes.length ≤ passage.reader.ring.freeSpace) :
    Lossless size { passage with
      reader.ring := { passage.reader.ring with queued := passage.reader.ring.queued ++ bytes }
      entered := passage.entered ++ bytes } where
  size_eq := h.size_eq
  bytes_eq := by
    show passage.entered ++ bytes = passage.left ++ (passage.reader.ring.queued ++ bytes)
    rw [h.bytes_eq, List.append_assoc]
  fits := by
    have hfree := h.freeSpace_add_available
    rw [Ring.available] at hfree
    rw [List.length_append]
    omega

/-- Bytes taken from the front of the ring. -/
theorem Lossless.leave (h : passage.Lossless size) {bytes rest : Bytes} {reader : RingReader}
    (hfront : passage.reader.ring.queued = bytes ++ rest)
    (hring : reader.ring = { passage.reader.ring with queued := rest }) :
    Lossless size { passage with reader, left := passage.left ++ bytes } where
  size_eq := by
    rw [hring]
    exact h.size_eq
  bytes_eq := by
    rw [hring, h.bytes_eq, hfront, List.append_assoc]
  fits := by
    have hfits := h.fits
    rw [hfront, List.length_append] at hfits
    rw [hring]
    exact Nat.le_trans (Nat.le_add_left _ _) hfits

theorem Lossless.push (h : passage.Lossless size) (byte : UInt8) :
    (passage.step (.push byte)).Lossless size := by
  by_cases hroom : passage.reader.ring.available < passage.reader.ring.capacity
  · have hone : [byte].length ≤ passage.reader.ring.freeSpace := Nat.sub_pos_of_lt hroom
    simpa [step, Ring.push_of_lt hroom] using h.enter hone
  · simpa [step, Ring.push_of_full (Nat.not_lt.1 hroom)] using h

theorem Lossless.read (h : passage.Lossless size) (n : Nat) (clock : Clock) :
    (passage.step (.read n clock)).Lossless size := by
  -- A read for nothing does not even look at the ring.
  by_cases hn : n = 0
  · rw [step, RingReader.read, if_pos hn]
    exact h.leave (List.nil_append _).symm rfl
  by_cases hnil : (passage.reader.withClock clock).ring.queued = []
  · -- The wait for a first byte moves the clock and leaves the ring alone.
    rw [step, RingReader.read_nil (Nat.pos_of_ne_zero hn) hnil]
    exact h.leave (List.nil_append _).symm rfl
  · rw [step, RingReader.read_queued (Nat.pos_of_ne_zero hn) hnil]
    exact h.leave (List.take_append_drop n _).symm rfl

/-- Whatever is done with a ring next, nothing is lost. -/
theorem Lossless.step (h : passage.Lossless size) (operation : Operation) :
    (passage.step operation).Lossless size := by
  cases operation with
  | push byte => exact h.push byte
  | pushAll bytes =>
    rw [Passage.step, Ring.pushAll_eq]
    exact h.enter (List.length_take_le _ _)
  | read n clock => exact h.read n clock
  | discardUntil marker =>
    rw [Passage.step, Ring.discardUntil_eq]
    refine h.leave ?_ rfl
    rw [← List.prefix_iff_eq_take.1 (List.takeWhile_prefix _),
      List.takeWhile_append_dropWhile]
  | pop =>
    rw [Passage.step, Ring.pop, Ring.peek?]
    refine h.leave ?_ rfl
    cases passage.reader.ring.queued with
    | nil => rfl
    | cons byte rest => rfl

theorem Lossless.run (h : passage.Lossless size) (operations : List Operation) :
    (passage.run operations).Lossless size := by
  induction operations generalizing passage with
  | nil => exact h
  | cons operation operations ih => exact ih (h.step operation)

/-- A ring passes on all that finds room in it, in order, whatever driver and polling loop do with
it. At any time there is room for all but one of its places; a byte goes in if there is room for it,
a slice as far as there is, and what does not go in is reported; a discard takes all in front of the
first marker and tells how much that was; and a read takes what is queued as far as it asks for it,
if anything is. -/
theorem passes_in_order (size : Nat) (operations : List Operation) :
    let passage := (start size).run operations
    let ring := passage.reader.ring
    passage.entered = passage.left ++ ring.queued
      ∧ ring.freeSpace + ring.available = size - 1
      ∧ (∀ byte, ring.push byte = if ring.available < size - 1
          then (.ok (), { ring with queued := ring.queued ++ [byte] })
          else (.error .resourceExhausted, ring))
      ∧ (∀ bytes, ∃ front back, bytes = front ++ back
          ∧ front.length = min bytes.length ring.freeSpace
          ∧ ring.pushAll bytes = (if back = [] then .ok () else .error .resourceExhausted,
            { ring with queued := ring.queued ++ front }))
      ∧ (∀ marker, ∃ noise rest, ring.queued = noise ++ rest ∧ marker ∉ noise
          ∧ (∀ byte ∈ rest.head?, byte = marker)
          ∧ ring.discardUntil marker = (noise.length, { ring with queued := rest }))
      ∧ ∀ n clock, ring.queued ≠ [] → ∃ bytes reader,
          (passage.reader.withClock clock).read n = (.ok bytes, reader)
            ∧ bytes.length = min n ring.available ∧ ring.queued = bytes ++ reader.ring.queued := by
  intro passage ring
  have hrun : passage.Lossless size := (start_lossless size).run operations
  refine ⟨hrun.bytes_eq, hrun.freeSpace_add_available, fun byte => ?_, fun bytes => ?_,
    fun marker => ?_, fun n clock hne => ?_⟩
  · rw [← hrun.capacity_eq]
    rfl
  · refine ⟨bytes.take ring.freeSpace, bytes.drop ring.freeSpace,
      (List.take_append_drop _ _).symm, by rw [List.length_take, Nat.min_comm], ?_⟩
    rw [Ring.pushAll_eq]
    simp only [List.drop_eq_nil_iff]
  · refine ⟨ring.queued.takeWhile (· ≠ marker), ring.queued.dropWhile (· ≠ marker),
      List.takeWhile_append_dropWhile.symm, ?_, ?_, Ring.discardUntil_eq ring marker⟩
    · intro hmem
      have hpassed := List.mem_takeWhile_imp hmem
      simp at hpassed
    · intro byte hbyte
      have hstops := List.head?_dropWhile_not (· ≠ marker) ring.queued
      rw [Option.mem_def.1 hbyte] at hstops
      simpa using hstops
  · by_cases hn : n = 0
    · exact ⟨[], passage.reader.withClock clock, by rw [RingReader.read, if_pos hn],
        by simp [hn], rfl⟩
    · exact ⟨_, _, RingReader.read_queued (Nat.pos_of_ne_zero hn) hne, List.length_take,
        (List.take_append_drop n _).symm⟩

/-- A slice that does not fit, a byte that is pushed in the middle of a read, and noise in front of
a marker. -/
def Operation.mixed : List Operation :=
  [.pushAll [1, 2, 3, 4, 5], .pop, .push 6, .read 2 {}, .push 7, .discardUntil 7, .push 8]

/-- What is left of it is read whole. -/
theorem passes_in_order_mixed :
    let passage := (start 4).run Operation.mixed
    passage.entered = [1, 2, 3, 6, 7, 8] ∧ passage.left = [1, 2, 3, 6]
      ∧ ∃ bytes reader, (passage.reader.withClock {}).read 5 = (.ok bytes, reader)
        ∧ bytes.length = min 5 passage.reader.ring.available
        ∧ passage.reader.ring.queued = bytes ++ reader.ring.queued :=
  ⟨by decide +kernel, by decide +kernel,
    (passes_in_order 4 Operation.mixed).2.2.2.2.2 5 {} (by decide +kernel)⟩

end Passage

end Reflash
