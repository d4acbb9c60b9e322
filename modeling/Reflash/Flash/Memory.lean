/-
  Reflash.Flash.Memory

  A NOR flash part held in memory. Erasing sets whole pages to 0xFF; programming
  can only lower bits, and a request that would have to raise one is refused as a
  whole. Requests are checked against the part's size and granularity before
  anything else. For trials, one request can be made to fail and one written byte
  can be made to lose bits.
-/
import Reflash.Fault
import Reflash.Bytes.LittleEndian

namespace Reflash

/-! ## The part -/

/-- What every part of one type has in common, in bytes. -/
structure Geometry where
  writeSize : Nat
  eraseSize : Nat
  capacity : Nat
  deriving DecidableEq, Inhabited

/-- How the part's driver reports a refused request. -/
inductive DriverError where
  | notAligned
  | outOfBounds
  | other
  deriving DecidableEq, Inhabited

namespace DriverError

def name : DriverError → String
  | notAligned => "NotAligned"
  | outOfBounds => "OutOfBounds"
  | other => "Other"

/-- The fault a driver error stands for; `otherwise` is what failing means for the request. -/
def toFault (otherwise : FlashFault) : DriverError → Fault
  | notAligned => .flash .notAligned
  | outOfBounds => .flash .outOfBounds
  | other => .flash otherwise

end DriverError

/-- The three requests a part takes. -/
inductive FlashOperation where
  | read
  | write
  | erase
  deriving DecidableEq, Inhabited

/-- A request that is going to fail: of matching requests, `skip` still go through. -/
structure PlannedFault where
  operation : FlashOperation
  skip : Nat := 0
  deriving DecidableEq, Inhabited

/-- A write that is going to lose bits: `skip` writes still go through unharmed, then the first
byte of the next loses `bits`, unnoticed. -/
structure Glitch where
  skip : Nat
  bits : UInt8
  deriving DecidableEq, Inhabited

structure Flash (g : Geometry) where
  memory : Vector UInt8 g.capacity := Vector.replicate g.capacity 0xFF
  /-- Pages erased so far. -/
  erasures : Nat := 0
  fault : Option PlannedFault := none
  glitch : Option Glitch := none

namespace Flash

variable {g : Geometry}

/-- An erased byte. -/
def erasedByte : UInt8 := 0xFF

instance : Inhabited (Flash g) := ⟨{}⟩

/-! ## Contents -/

/-- The bytes from `offset` on, as far as the part goes. -/
def slice (flash : Flash g) (offset length : Nat) : Bytes :=
  (flash.memory.toArray.extract offset (offset + length)).toList

/-- The pages that are not blank, each with its number. -/
def writtenPages (flash : Flash g) : List (Nat × Bytes) :=
  (List.range (g.capacity / g.eraseSize)).filterMap fun page =>
    let bytes := flash.slice (page * g.eraseSize) g.eraseSize
    if bytes.all (· == erasedByte) then none else some (page, bytes)

/-- Puts bytes at `offset`, one after the other. -/
def patch {n : Nat} (memory : Vector UInt8 n) (offset : Nat) : Bytes → Vector UInt8 n
  | [] => memory
  | byte :: bytes => patch (memory.setIfInBounds offset byte) (offset + 1) bytes

/-- Sets `count` bytes from `offset` on to the erased value. -/
def blank {n : Nat} (memory : Vector UInt8 n) (offset : Nat) : Nat → Vector UInt8 n
  | 0 => memory
  | count + 1 => blank (memory.setIfInBounds offset erasedByte) (offset + 1) count

/-- Puts bytes straight into the part, whatever was there. -/
def preload (flash : Flash g) (offset : Nat) (bytes : Bytes) : Flash g :=
  { flash with memory := patch flash.memory offset bytes }

/-- Whether programming `new` over `old` would have to raise a bit. -/
def raises (old new : Bytes) : Bool :=
  (old.zip new).any fun (o, n) => n &&& ~~~o != 0

/-! ## Trials -/

/-- Lets `skip` requests of a kind through and fails the one after. -/
def failAfter (flash : Flash g) (operation : FlashOperation) (skip : Nat) : Flash g :=
  { flash with fault := some { operation, skip } }

/-- Whether this request is the one planned to fail. -/
def takeFault (flash : Flash g) (operation : FlashOperation) : Bool × Flash g :=
  match flash.fault with
  | none => (false, flash)
  | some planned =>
    if planned.operation ≠ operation then (false, flash)
    else match planned.skip with
      | 0 => (true, { flash with fault := none })
      | skip + 1 => (false, { flash with fault := some { planned with skip } })

/-- The bytes that a write really programs. -/
def takeGlitch (flash : Flash g) (bytes : Bytes) : Bytes × Flash g :=
  match flash.glitch with
  | none => (bytes, flash)
  | some { skip := 0, bits } =>
    (bytes.modifyHead (· &&& ~~~bits), { flash with glitch := none })
  | some { skip := skip + 1, bits } => (bytes, { flash with glitch := some { skip, bits } })

/-! ## Requests -/

/-- Bounds come first, then alignment. -/
def checkSlice (capacity align offset length : Nat) : Except DriverError Unit :=
  if length > capacity ∨ offset > capacity - length then .error .outOfBounds
  else if offset % align ≠ 0 ∨ length % align ≠ 0 then .error .notAligned
  else .ok ()

/-- Bounds come first, then alignment. -/
def checkRange (capacity align first last : Nat) : Except DriverError Unit :=
  if first > last ∨ last > capacity then .error .outOfBounds
  else if first % align ≠ 0 ∨ last % align ≠ 0 then .error .notAligned
  else .ok ()

def read (flash : Flash g) (offset length : Nat) : Except DriverError Bytes × Flash g :=
  match checkSlice g.capacity 1 offset length with
  | .error error => (.error error, flash)
  | .ok () =>
    let (failed, flash) := flash.takeFault .read
    if failed then (.error .other, flash) else (.ok (flash.slice offset length), flash)

def write (flash : Flash g) (offset : Nat) (bytes : Bytes) :
    Except DriverError Unit × Flash g :=
  -- Every write counts towards a planned glitch, one that is refused too.
  let (bytes, flash) := flash.takeGlitch bytes
  match checkSlice g.capacity g.writeSize offset bytes.length with
  | .error error => (.error error, flash)
  | .ok () =>
    let (failed, flash) := flash.takeFault .write
    if failed || raises (flash.slice offset bytes.length) bytes then (.error .other, flash)
    else (.ok (), { flash with memory := patch flash.memory offset bytes })

/-- Erases the pages from `first` up to `last`. -/
def erase (flash : Flash g) (first last : Nat) : Except DriverError Unit × Flash g :=
  match checkRange g.capacity g.eraseSize first last with
  | .error error => (.error error, flash)
  | .ok () =>
    let (failed, flash) := flash.takeFault .erase
    if failed then (.error .other, flash)
    else (.ok (), { flash with
      memory := blank flash.memory first (last - first)
      erasures := flash.erasures + (last - first) / g.eraseSize })

end Flash

end Reflash
