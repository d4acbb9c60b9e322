/-
  Reflash.Flash.Procedure

  What a node does to its device, written down step by step: flash requests and
  jumps, each followed by what is done with its answer. A procedure is data.
  Running it on a device gives its result and the device afterwards; because each
  request is a step of its own, one can also say what holds between any two of
  them, which is where the power may fail.
-/
import Reflash.Flash.Memory

namespace Reflash

/-- Where a jump hands control to. -/
inductive JumpTarget where
  /-- The image in the active region. -/
  | application
  /-- Back into the bootloader. -/
  | bootloader
  /-- The chip vendor's own bootloader. -/
  | vendorBootloader
  deriving DecidableEq, Inhabited

namespace JumpTarget

def name : JumpTarget → String
  | application => "Application"
  | bootloader => "Bootloader"
  | vendorBootloader => "VendorBootloader"

end JumpTarget

/-! ## Devices -/

/-- Notes jumps instead of making them, as many as it has room for. -/
structure JumpRecorder where
  jumps : List JumpTarget := []
  deriving DecidableEq, Inhabited

namespace JumpRecorder

/-- Jumps a recorder has room for. -/
def capacity : Nat := 8

/-- A recorded jump always comes back. -/
def jump (recorder : JumpRecorder) (target : JumpTarget) : Fault × JumpRecorder :=
  (.bootloaderFailure,
    if recorder.jumps.length < capacity then { jumps := recorder.jumps ++ [target] }
    else recorder)

end JumpRecorder

/-- A flash part and whatever makes the jumps. -/
structure Device (g : Geometry) where
  flash : Flash g := {}
  jumper : JumpRecorder := {}

/-! ## Procedures -/

inductive Procedure (α : Type) where
  | done (result : α)
  | read (offset length : Nat) (next : Except DriverError Bytes → Procedure α)
  | write (offset : Nat) (bytes : Bytes) (next : Except DriverError Unit → Procedure α)
  | erase (first last : Nat) (next : Except DriverError Unit → Procedure α)
  /-- A jump that comes back is followed by `next`. -/
  | jump (target : JumpTarget) (next : Procedure α)

namespace Procedure

variable {α β : Type} {g : Geometry}

/-- Goes on with what `next` makes of the result. -/
def bind : Procedure α → (α → Procedure β) → Procedure β
  | done result, next => next result
  | read offset length step, next => read offset length fun answer => (step answer).bind next
  | write offset bytes step, next => write offset bytes fun answer => (step answer).bind next
  | erase first last step, next => erase first last fun answer => (step answer).bind next
  | jump target step, next => jump target (step.bind next)

instance : Monad Procedure where
  pure := done
  bind := bind

/-- Carries a procedure out. -/
def run : Procedure α → Device g → α × Device g
  | done result, device => (result, device)
  | read offset length next, device =>
    let (answer, flash) := device.flash.read offset length
    (next answer).run { device with flash }
  | write offset bytes next, device =>
    let (answer, flash) := device.flash.write offset bytes
    (next answer).run { device with flash }
  | erase first last next, device =>
    let (answer, flash) := device.flash.erase first last
    (next answer).run { device with flash }
  | jump target next, device =>
    next.run { device with jumper := (device.jumper.jump target).2 }

@[simp] theorem run_pure (a : α) (device : Device g) :
    (pure a : Procedure α).run device = (a, device) := rfl

theorem run_bind (procedure : Procedure α) (next : α → Procedure β) (device : Device g) :
    (procedure >>= next).run device
      = (next (procedure.run device).1).run (procedure.run device).2 := by
  induction procedure generalizing device with
  | done result => rfl
  | read offset length step ih => exact ih _ _
  | write offset bytes step ih => exact ih _ _
  | erase first last step ih => exact ih _ _
  | jump target step ih => exact ih _

end Procedure

/-! ## Procedures that stop at the first fault -/

/-- A procedure that may end in a fault. -/
abbrev FlashTask := ExceptT Fault Procedure

namespace FlashTask

/-- Reads flash. -/
def read (offset length : Nat) : FlashTask Bytes :=
  ExceptT.mk (.read offset length fun answer =>
    .done (answer.mapError (DriverError.toFault .readFailed)))

/-- Programs flash. -/
def write (offset : Nat) (bytes : Bytes) : FlashTask Unit :=
  ExceptT.mk (.write offset bytes fun answer =>
    .done (answer.mapError (DriverError.toFault .writeFailed)))

/-- Erases flash pages. -/
def erase (first last : Nat) : FlashTask Unit :=
  ExceptT.mk (.erase first last fun answer =>
    .done (answer.mapError (DriverError.toFault .eraseFailed)))

end FlashTask

end Reflash
