/-
  Reflash.Proofs.Flash.Trace

  What holds between any two requests of a procedure. A trace lists the requests with
  the device as each of them leaves it, so a power cut is a place in the trace.
  `Ensures` says at once what holds all along a trace and what holds at its end, and
  goes through sequences like a Hoare triple; for procedures that stop at the first
  fault there is a form of its own, which tells success from failure.
-/
import Reflash.Flash.Procedure
import Reflash.Proofs.Flash.Contents

namespace Reflash

/-- What a procedure asks of a device. -/
inductive Request where
  | read (offset length : Nat)
  | write (offset : Nat) (bytes : Bytes)
  | erase (first last : Nat)
  | jump (target : JumpTarget)
  deriving DecidableEq

namespace Procedure

variable {α β γ : Type} {g : Geometry}

/-! ## Sequences -/

theorem bind_done (procedure : Procedure α) : procedure.bind done = procedure := by
  induction procedure with
  | done result => rfl
  | read offset length step ih => exact congrArg (read offset length) (funext ih)
  | write offset bytes step ih => exact congrArg (write offset bytes) (funext ih)
  | erase first last step ih => exact congrArg (erase first last) (funext ih)
  | jump target step ih => exact congrArg (jump target) ih

theorem bind_bind (procedure : Procedure α) (next : α → Procedure β) (last : β → Procedure γ) :
    (procedure.bind next).bind last = procedure.bind fun a => (next a).bind last := by
  induction procedure with
  | done result => rfl
  | read offset length step ih => exact congrArg (read offset length) (funext ih)
  | write offset bytes step ih => exact congrArg (write offset bytes) (funext ih)
  | erase first last step ih => exact congrArg (erase first last) (funext ih)
  | jump target step ih => exact congrArg (jump target) ih

instance : LawfulMonad Procedure :=
  LawfulMonad.mk' Procedure bind_done (fun _ _ => rfl) bind_bind

/-! ## Traces -/

/-- The requests of a procedure, each with the device as it is right after it. -/
def trace : Procedure α → Device g → List (Request × Device g)
  | done _, _ => []
  | read offset length next, device =>
    let (answer, flash) := device.flash.read offset length
    (.read offset length, { device with flash }) :: (next answer).trace { device with flash }
  | write offset bytes next, device =>
    let (answer, flash) := device.flash.write offset bytes
    (.write offset bytes, { device with flash }) :: (next answer).trace { device with flash }
  | erase first last next, device =>
    let (answer, flash) := device.flash.erase first last
    (.erase first last, { device with flash }) :: (next answer).trace { device with flash }
  | jump target next, device =>
    let jumper := (device.jumper.jump target).2
    (.jump target, { device with jumper }) :: next.trace { device with jumper }

theorem trace_bind (procedure : Procedure α) (next : α → Procedure β) (device : Device g) :
    (procedure >>= next).trace device
      = procedure.trace device
        ++ (next (procedure.run device).1).trace (procedure.run device).2 := by
  induction procedure generalizing device with
  | done result => rfl
  | read offset length step ih => exact congrArg (_ :: ·) (ih _ _)
  | write offset bytes step ih => exact congrArg (_ :: ·) (ih _ _)
  | erase first last step ih => exact congrArg (_ :: ·) (ih _ _)
  | jump target step ih => exact congrArg (_ :: ·) (ih _)

/-! ## All along a trace, and at its end -/

/-- Every request leaves the device as `during` says, and the result with the device at the end
is as `after` says. -/
def Ensures (procedure : Procedure α) (device : Device g) (during : Request → Device g → Prop)
    (after : α → Device g → Prop) : Prop :=
  (∀ step ∈ procedure.trace device, during step.1 step.2)
    ∧ after (procedure.run device).1 (procedure.run device).2

variable {device : Device g} {during during' : Request → Device g → Prop}
  {after : α → Device g → Prop}

theorem Ensures.imp {procedure : Procedure α} {after' : α → Device g → Prop}
    (h : procedure.Ensures device during after)
    (hduring : ∀ request device', during request device' → during' request device')
    (hafter : ∀ a device', after a device' → after' a device') :
    procedure.Ensures device during' after' :=
  ⟨fun step hstep => hduring _ _ (h.1 step hstep), hafter _ _ h.2⟩

theorem ensures_pure {a : α} (h : after a device) :
    (pure a : Procedure α).Ensures device during after :=
  ⟨nofun, h⟩

theorem Ensures.bind {procedure : Procedure α} {next : α → Procedure β}
    {after' : β → Device g → Prop} (h : procedure.Ensures device during after)
    (hnext : ∀ a device', after a device' → (next a).Ensures device' during after') :
    (procedure >>= next).Ensures device during after' := by
  have hrest := hnext _ _ h.2
  constructor
  · intro step hstep
    rw [trace_bind, List.mem_append] at hstep
    rcases hstep with hstep | hstep
    · exact h.1 step hstep
    · exact hrest.1 step hstep
  · rw [run_bind]
    exact hrest.2

/-! ## One request after the other -/

theorem ensures_read {offset length : Nat} {next : Except DriverError Bytes → Procedure α}
    (hduring : during (.read offset length)
      { device with flash := (device.flash.read offset length).2 })
    (h : (next (device.flash.read offset length).1).Ensures
      { device with flash := (device.flash.read offset length).2 } during after) :
    (read offset length next).Ensures device during after :=
  ⟨List.forall_mem_cons.2 ⟨hduring, h.1⟩, h.2⟩

theorem ensures_write {offset : Nat} {bytes : Bytes} {next : Except DriverError Unit → Procedure α}
    (hduring : during (.write offset bytes)
      { device with flash := (device.flash.write offset bytes).2 })
    (h : (next (device.flash.write offset bytes).1).Ensures
      { device with flash := (device.flash.write offset bytes).2 } during after) :
    (write offset bytes next).Ensures device during after :=
  ⟨List.forall_mem_cons.2 ⟨hduring, h.1⟩, h.2⟩

theorem ensures_erase {first last : Nat} {next : Except DriverError Unit → Procedure α}
    (hduring : during (.erase first last)
      { device with flash := (device.flash.erase first last).2 })
    (h : (next (device.flash.erase first last).1).Ensures
      { device with flash := (device.flash.erase first last).2 } during after) :
    (erase first last next).Ensures device during after :=
  ⟨List.forall_mem_cons.2 ⟨hduring, h.1⟩, h.2⟩

theorem ensures_jump {target : JumpTarget} {next : Procedure α}
    (hduring : during (.jump target) { device with jumper := (device.jumper.jump target).2 })
    (h : next.Ensures { device with jumper := (device.jumper.jump target).2 } during after) :
    (jump target next).Ensures device during after :=
  ⟨List.forall_mem_cons.2 ⟨hduring, h.1⟩, h.2⟩

end Procedure

namespace FlashTask

variable {α β : Type} {g : Geometry}

/-- A task jumps nowhere, every request of it leaves flash as `during` says, and at its end flash
is as `ok` says of its result or as `err` says of the fault that stopped it. -/
def Ensures (task : FlashTask α) (flash : Flash g) (during : Flash g → Prop)
    (ok : α → Flash g → Prop) (err : Fault → Flash g → Prop) : Prop :=
  ∀ jumper, task.run.Ensures { flash, jumper }
    (fun request device =>
      (∀ target, request ≠ .jump target) ∧ device.jumper = jumper ∧ during device.flash)
    (fun outcome device => device.jumper = jumper ∧
      match outcome with
      | .ok a => ok a device.flash
      | .error fault => err fault device.flash)

variable {flash : Flash g} {during : Flash g → Prop} {ok : α → Flash g → Prop}
  {err : Fault → Flash g → Prop}

theorem Ensures.imp {task : FlashTask α} {during' : Flash g → Prop} {ok' : α → Flash g → Prop}
    {err' : Fault → Flash g → Prop} (h : task.Ensures flash during ok err)
    (hduring : ∀ flash', during flash' → during' flash')
    (hok : ∀ a flash', ok a flash' → ok' a flash')
    (herr : ∀ fault flash', err fault flash' → err' fault flash') :
    task.Ensures flash during' ok' err' := by
  intro jumper
  refine (h jumper).imp ?_ ?_
  · intro request device ⟨hjump, hjumper, hflash⟩
    exact ⟨hjump, hjumper, hduring _ hflash⟩
  · intro outcome device ⟨hjumper, hflash⟩
    refine ⟨hjumper, ?_⟩
    cases outcome with
    | ok a => exact hok a _ hflash
    | error fault => exact herr fault _ hflash

theorem ensures_pure {a : α} (h : ok a flash) :
    (pure a : FlashTask α).Ensures flash during ok err :=
  fun _ => ⟨nofun, rfl, h⟩

theorem ensures_throw {fault : Fault} (h : err fault flash) :
    (throw fault : FlashTask α).Ensures flash during ok err :=
  fun _ => ⟨nofun, rfl, h⟩

theorem Ensures.bind {task : FlashTask α} {next : α → FlashTask β} {ok' : β → Flash g → Prop}
    (h : task.Ensures flash during ok err)
    (hnext : ∀ a flash', ok a flash' → (next a).Ensures flash' during ok' err) :
    (task >>= next).Ensures flash during ok' err := by
  intro jumper
  refine Procedure.Ensures.bind (h jumper) ?_
  rintro outcome ⟨flash', jumper'⟩ ⟨hjumper, hflash⟩
  obtain rfl : jumper' = jumper := hjumper
  cases outcome with
  | ok a => exact hnext a flash' hflash jumper'
  | error fault => exact ⟨nofun, rfl, hflash⟩

/-- What a task does, as part of a procedure that goes on either way. -/
theorem Ensures.run {task : FlashTask α} {device : Device g} {next : Except Fault α → Procedure β}
    {during' : Request → Device g → Prop} {after : β → Device g → Prop}
    (h : task.Ensures device.flash during ok err)
    (hduring : ∀ request flash', (∀ target, request ≠ .jump target) → during flash' →
      during' request { device with flash := flash' })
    (hok : ∀ a flash', ok a flash' →
      (next (.ok a)).Ensures { device with flash := flash' } during' after)
    (herr : ∀ fault flash', err fault flash' →
      (next (.error fault)).Ensures { device with flash := flash' } during' after) :
    (task.run >>= next).Ensures device during' after := by
  refine Procedure.Ensures.bind (Procedure.Ensures.imp (h device.jumper) ?_ fun _ _ h => h) ?_
  · rintro request ⟨flash', jumper⟩ ⟨hjump, hjumper, hflash⟩
    obtain rfl : jumper = device.jumper := hjumper
    exact hduring request flash' hjump hflash
  · rintro outcome ⟨flash', jumper⟩ ⟨hjumper, hflash⟩
    obtain rfl : jumper = device.jumper := hjumper
    cases outcome with
    | ok a => exact hok a flash' hflash
    | error fault => exact herr fault flash' hflash

/-! ## Stopping -/

theorem throw_bind (fault : Fault) (next : α → FlashTask β) :
    (throw fault >>= next) = throw fault := rfl

/-- A check stops the task or lets it go on. -/
theorem check_bind {c : Prop} [Decidable c] (fault : Fault) (next : Unit → FlashTask β) :
    ((if c then throw fault else pure ()) >>= next) = if c then throw fault else next () := by
  by_cases h : c
  · rw [if_pos h, if_pos h]
    rfl
  · rw [if_neg h, if_neg h]
    rfl

/-! ## Single requests -/

/-- `fault` is the failure of a request on a part with which something was planned to fail. -/
def Failing (flash : Flash g) (fault : Fault) : Prop :=
  flash.fault ≠ none
    ∧ (fault = .flash .readFailed ∨ fault = .flash .writeFailed ∨ fault = .flash .eraseFailed)

theorem Failing.of_became {before after : Flash g} {memory : Vector UInt8 g.capacity}
    {fault : Fault} (h : Failing after fault) (hbecame : Flash.Became before memory after) :
    Failing before fault :=
  ⟨fun hnone => h.1 (hbecame.fault_eq hnone), h.2⟩

theorem not_failing {fault : Fault} (h : flash.fault = none) : ¬Failing flash fault :=
  fun hfailing => hfailing.1 h

/-- A task leaves flash as it is, and gives `value` unless a request was planned to fail. -/
def Reads (task : FlashTask α) (flash : Flash g) (value : α) : Prop :=
  task.Ensures flash (Flash.Kept flash)
    (fun a flash' => a = value ∧ Flash.Kept flash flash')
    (fun fault flash' => Failing flash fault ∧ Flash.Kept flash flash')

theorem reads_pure (h : flash.glitch = none) (a : α) : (pure a : FlashTask α).Reads flash a :=
  ensures_pure ⟨rfl, Flash.Kept.refl h⟩

theorem Reads.bind {task : FlashTask α} {next : α → FlashTask β} {a : α} {b : β}
    (h : task.Reads flash a) (hnext : ∀ flash', Flash.Kept flash flash' → (next a).Reads flash' b) :
    (task >>= next).Reads flash b := by
  refine Ensures.bind h ?_
  rintro _ flash' ⟨rfl, hkept⟩
  refine Ensures.imp (hnext flash' hkept) (fun _ => hkept.then_kept) ?_ ?_
  · rintro _ flash'' ⟨rfl, hkept'⟩
    exact ⟨rfl, hkept.then_kept hkept'⟩
  · rintro fault flash'' ⟨hfailing, hkept'⟩
    exact ⟨hfailing.of_became hkept, hkept.then_kept hkept'⟩

/-- Where nothing is planned to fail, the value is given. -/
theorem Reads.run_eq {task : FlashTask α} {device : Device g} {value : α}
    (h : task.Reads device.flash value) (hfault : device.flash.fault = none) :
    (task.run.run device).1 = .ok value := by
  obtain ⟨-, hresult⟩ := (h device.jumper).2
  cases hrun : (task.run.run device).1 with
  | ok a =>
    rw [hrun] at hresult
    rw [hresult.1]
  | error fault =>
    rw [hrun] at hresult
    exact absurd hresult.1 (not_failing hfault)

theorem mapError_ok (toFault : DriverError → Fault) (value : α) :
    (.ok value : Except DriverError α).mapError toFault = .ok value := rfl

theorem mapError_error (toFault : DriverError → Fault) (error : DriverError) :
    (.error error : Except DriverError α).mapError toFault = .error (toFault error) := rfl

theorem read_reads (offset length : Nat) (hg : flash.glitch = none)
    (hfit : offset + length ≤ g.capacity) :
    (read offset length).Reads flash (flash.slice offset length) := by
  intro jumper
  show Procedure.Ensures (.read offset length _) _ _ _
  rcases Flash.read_cases hg hfit with ⟨hanswer, hkept⟩ | ⟨hanswer, hfault, hkept⟩
  all_goals simp only [Procedure.Ensures, Procedure.trace, Procedure.run, hanswer]
  · simpa [mapError_ok] using hkept
  · simpa [mapError_error, DriverError.toFault, Failing, hfault] using hkept

theorem ensures_write {offset : Nat} {bytes : Bytes} (hg : flash.glitch = none)
    (hfit : offset + bytes.length ≤ g.capacity) (hoffset : offset % g.writeSize = 0)
    (hlength : bytes.length % g.writeSize = 0)
    (hraises : Flash.raises (flash.slice offset bytes.length) bytes = false) :
    (write offset bytes).Ensures flash
      (fun flash' => Flash.Kept flash flash'
        ∨ Flash.Became flash (Flash.patch flash.memory offset bytes) flash')
      (fun _ flash' => Flash.Became flash (Flash.patch flash.memory offset bytes) flash')
      (fun fault flash' => Failing flash fault ∧ Flash.Kept flash flash') := by
  intro jumper
  show Procedure.Ensures (.write offset bytes _) _ _ _
  rcases Flash.write_cases hg hfit hoffset hlength hraises with
    ⟨hanswer, hbecame⟩ | ⟨hanswer, hfault, hkept⟩
  all_goals simp only [Procedure.Ensures, Procedure.trace, Procedure.run, hanswer]
  · simp [mapError_ok, hbecame]
  · simp [mapError_error, DriverError.toFault, Failing, hfault, hkept]

theorem ensures_erase (first last : Nat) (hg : flash.glitch = none) (horder : first ≤ last)
    (hfit : last ≤ g.capacity) (hfirst : first % g.eraseSize = 0)
    (hlast : last % g.eraseSize = 0) :
    (erase first last).Ensures flash
      (fun flash' => Flash.Kept flash flash' ∨ Flash.Became flash
        (Flash.patch flash.memory first (List.replicate (last - first) Flash.erasedByte)) flash')
      (fun _ flash' => Flash.Became flash
        (Flash.patch flash.memory first (List.replicate (last - first) Flash.erasedByte)) flash')
      (fun fault flash' => Failing flash fault ∧ Flash.Kept flash flash') := by
  intro jumper
  show Procedure.Ensures (.erase first last _) _ _ _
  rcases Flash.erase_cases hg horder hfit hfirst hlast with
    ⟨hanswer, hbecame⟩ | ⟨hanswer, hfault, hkept⟩
  all_goals simp only [Procedure.Ensures, Procedure.trace, Procedure.run, hanswer]
  · simp [mapError_ok, hbecame]
  · simp [mapError_error, DriverError.toFault, Failing, hfault, hkept]

end FlashTask

end Reflash
