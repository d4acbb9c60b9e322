/-
  Reflash.Proofs.Install.Inspection

  Looking whether there is an application worth running, on whatever layout. It only
  reads; so a fail safe jump makes no other requests than reads, and a jump to the
  application where nothing was found wrong. When it is refused, either no intact
  application was found, or a read failed, or there is no layout yet.
-/
import Reflash.Proofs.Custody
import Reflash.Proofs.Flash.Order
import Reflash.Proofs.Install.Resumption

namespace Reflash

/-! ## Tasks that only look -/

/-- A request that leaves contents and control where they are. -/
def Request.IsRead : Request → Prop
  | read _ _ => True
  | _ => False

/-- A request that leaves contents where they are. -/
def Request.Spares : Request → Prop
  | read _ _ => True
  | jump _ => True
  | _ => False

theorem Request.IsRead.spares {request : Request} (h : request.IsRead) : request.Spares := by
  cases request with
  | read offset length => trivial
  | _ => exact h.elim

/-- A read changes nothing, wherever it is made. -/
theorem Flash.read_kept {g : Geometry} {flash : Flash g} (h : flash.glitch = none)
    (offset length : Nat) : Flash.Kept flash (flash.read offset length).2 := by
  have hkept := Flash.takeFault_kept h .read
  rw [Flash.read]
  split
  · exact Flash.Kept.refl h
  · simp only
    split
    · exact hkept
    · exact hkept

/-- Requests that leave contents where they are leave them as they were. -/
theorem Procedure.Asks.memory_eq {α : Type} {g : Geometry} {result : α → Prop}
    {procedure : Procedure α} (h : procedure.Asks Request.Spares result) (device : Device g) :
    (procedure.run device).2.flash.memory = device.flash.memory := by
  induction procedure generalizing device with
  | done a => rfl
  | read offset length next ih =>
    exact (ih _ (h.after_read device.flash) _).trans (Flash.read_memory _ _ _)
  | write offset bytes next ih => exact h.1.elim
  | erase first last next ih => exact h.1.elim
  | jump target next ih => exact ih h.2 _

/-- Nor do they plan anything to go wrong. -/
theorem Procedure.Asks.kept {α : Type} {g : Geometry} {result : α → Prop}
    {procedure : Procedure α} (h : procedure.Asks Request.Spares result) (device : Device g)
    (hglitch : device.flash.glitch = none) :
    Flash.Kept device.flash (procedure.run device).2.flash := by
  induction procedure generalizing device with
  | done a => exact Flash.Kept.refl hglitch
  | read offset length next ih =>
    have hread := Flash.read_kept hglitch offset length
    have hrest := ih _ (h.after_read device.flash)
      { device with flash := (device.flash.read offset length).2 } hread.glitch_eq
    exact hread.then_kept hrest
  | write offset bytes next ih => exact h.1.elim
  | erase first last next ih => exact h.1.elim
  | jump target next ih =>
    exact ih h.2 { device with jumper := (device.jumper.jump target).2 } hglitch

/-- Whatever a part answers, the task only reads, and finds fault with what it reads or reports
that a read failed. -/
def FlashTask.Inspects {α : Type} (task : FlashTask α) : Prop :=
  task.run.Asks Request.IsRead fun outcome => ∀ fault, outcome = .error fault →
    fault = .flashVerificationFailed ∨ ∃ cause, fault = .flash cause

namespace FlashTask

variable {α β : Type}

theorem inspects_pure (a : α) : (pure a : FlashTask α).Inspects := nofun

theorem inspects_throw : (throw .flashVerificationFailed : FlashTask α).Inspects := by
  rintro fault ⟨⟩
  exact .inl rfl

theorem Inspects.bind {task : FlashTask α} {next : α → FlashTask β} (h : task.Inspects)
    (hnext : ∀ a, (next a).Inspects) : (task >>= next).Inspects := by
  refine Procedure.Asks.bind h ?_
  intro outcome hfault
  cases outcome with
  | ok a => exact hnext a
  | error fault =>
    intro fault' heq
    cases heq
    exact hfault fault rfl

theorem read_inspects (offset length : Nat) : (read offset length).Inspects :=
  ⟨trivial, fun _ _ _ h => .inr (mapError_flash h), fun _ _ h => .inr (mapError_flash h)⟩

end FlashTask

open FlashTask (Inspects inspects_pure inspects_throw read_inspects)

theorem Pages.crc_inspects (offset length : Nat) : (crc offset length).Inspects := by
  rw [crc]
  refine Inspects.bind ?_ fun _ => inspects_pure _
  -- By induction on the blocks, from any digest.
  generalize cut blockSize 0 length = pieces
  generalize ({} : Crc32.Digest) = digest
  induction pieces generalizing digest with
  | nil => exact inspects_pure _
  | cons piece pieces ih =>
    rw [List.foldlM_cons]
    have hpiece : FlashTask.Inspects (FlashTask.read (offset + piece.1) piece.2 >>= fun bytes =>
        pure (digest.update bytes)) := (read_inspects _ _).bind fun _ => inspects_pure _
    exact hpiece.bind fun digest' => ih digest'

theorem Pages.isBlank_inspects (offset length : Nat) : (isBlank offset length).Inspects := by
  rw [isBlank]
  generalize cut blockSize 0 length = pieces
  induction pieces with
  | nil => exact inspects_pure _
  | cons piece pieces ih =>
    refine (read_inspects (offset + piece.1) piece.2).bind fun bytes => ?_
    show FlashTask.Inspects (if _ then pure false else arePiecesBlank offset pieces)
    -- One block that is not blank decides, and the rest is not read.
    split
    · exact inspects_pure _
    · exact ih

namespace Installer

theorem checkActive_inspects (layout : Layout) : (checkActive layout).Inspects := by
  rw [checkActive]
  cases layout.record? with
  | none =>
    refine (Pages.isBlank_inspects _ _).bind fun blank => ?_
    cases blank with
    | true => exact inspects_throw
    | false => exact inspects_pure _
  | some offset =>
    refine ((read_inspects offset _).bind fun _ => inspects_pure _).bind fun record? => ?_
    cases record? with
    | none => exact inspects_throw
    | some record =>
      show FlashTask.Inspects (if record.size = 0 ∨ record.size.toNat > layout.regionSize then
        throw Fault.flashVerificationFailed >>= fun _ => _ else _)
      split
      · exact inspects_throw
      · refine (Pages.crc_inspects _ _).bind fun crc => ?_
        split
        · exact inspects_throw
        · exact inspects_pure _

/-! ## Fail safe jumps -/

/-- Why a fail safe jump is not made. -/
inductive Refusal : Fault → Prop
  /-- There is no layout yet. -/
  | uninitialized : Refusal .bootloaderUninitialized
  /-- There is no intact application. -/
  | notIntact : Refusal .flashVerificationFailed
  /-- The application could not be read. -/
  | unreadable (cause : FlashFault) : Refusal (.flash cause)

/-- Looking for the application only reads, and has its reasons when it finds none. -/
theorem checkInstalled_asks_reads (installer : Installer) :
    (checkInstalled installer).run.Asks Request.IsRead fun outcome =>
      ∀ fault, outcome = .error fault → Refusal fault := by
  cases installer with
  | uninitialized =>
    rintro fault ⟨⟩
    exact .uninitialized
  | ready layout stage =>
    refine (checkActive_inspects layout).imp (fun _ => id) fun outcome h fault hfault => ?_
    rcases h fault hfault with rfl | ⟨cause, rfl⟩
    · exact .notIntact
    · exact .unreadable cause

/-- A fail safe jump comes back or has been refused; nothing is programmed or erased for it. -/
theorem failSafeJump_spares (installer : Installer) :
    (failSafeJump installer).Asks Request.Spares fun reason =>
      reason = .bootloaderFailure ∨ Refusal reason := by
  refine ((checkInstalled_asks_reads installer).imp (fun _ => Request.IsRead.spares)
    fun _ => id).bind fun outcome houtcome => ?_
  cases outcome with
  | ok _ => exact ⟨trivial, .inl rfl⟩
  | error fault => exact .inr (houtcome fault rfl)

theorem Refusal.ne_bootloaderFailure {fault : Fault} (h : Refusal fault) :
    fault ≠ .bootloaderFailure := by
  cases h <;> nofun

variable {g : Geometry} {installer : Installer} {device : Device g}

theorem jumps_checkInstalled (installer : Installer) (device : Device g) :
    (checkInstalled installer).run.jumps device = [] := by
  refine List.filterMap_eq_nil_iff.2 fun step hstep => ?_
  have hread := ((checkInstalled_asks_reads installer).ensures device).1 step hstep
  cases hrequest : step.1 with
  | read offset length => rfl
  | _ =>
    rw [hrequest] at hread
    exact hread.elim

/-- The jump is made exactly when the answer says that it was come back from. -/
theorem jumps_failSafeJump (installer : Installer) (device : Device g) :
    (failSafeJump installer).jumps device
      = jumpsBehind (some ((failSafeJump installer).run device).1) := by
  have houtcome := ((checkInstalled_asks_reads installer).ensures device).2
  rw [failSafeJump, Procedure.jumps_bind, Procedure.run_bind, jumps_checkInstalled,
    List.nil_append]
  cases hrun : ((checkInstalled installer).run.run device).1 with
  | ok _ => rfl
  | error fault =>
    exact (if_neg fun heq =>
      (houtcome fault hrun).ne_bootloaderFailure (Option.some.inj heq)).symm

/-- Where an application is found, it is jumped to. -/
theorem run_failSafeJump_ok (h : ((checkInstalled installer).run.run device).1 = .ok ()) :
    ((failSafeJump installer).run device).1 = .bootloaderFailure := by
  rw [failSafeJump, Procedure.run_bind, h]
  rfl

end Installer

end Reflash
