/-
  Reflash.Proofs.Flash.Order

  How procedures bear failing requests. An orderly procedure programs whole writes,
  erases whole pages, and stops at the first request that fails: it reports the
  failure and does nothing more. If its requests also lie in the part, the part has
  no reason to find fault with their form, so that the only flash faults it can
  report are failed requests, and a fault that was planned and has been met was
  reported. A fault that was planned and not met has made no difference.
-/
import Reflash.Proofs.Flash.Footprint

namespace Reflash

/-! ## Faults that are reported -/

/-- What a request of this kind is reported with when it fails. -/
def FlashOperation.failure : FlashOperation → FlashFault
  | read => .readFailed
  | write => .writeFailed
  | erase => .eraseFailed

namespace Fault

/-- The fault that a result reports, if it reports one. -/
def ofResult? {α : Type} : Except Fault α → Option Fault
  | .ok _ => none
  | .error fault => some fault

theorem ofResult?_eq_some {α : Type} {result : Except Fault α} {fault : Fault} :
    ofResult? result = some fault ↔ result = .error fault := by
  cases result <;> simp [ofResult?]

/-- Whether something other than flash is found fault with, if anything is. -/
def IsVerdict (fault? : Option Fault) : Prop :=
  ∀ cause, fault? ≠ some (.flash cause)

theorem isVerdict_none : IsVerdict none := nofun

end Fault

/-! ## Requests of the right form -/

/-- Whether a request lies inside the part and keeps to its granularity. -/
def Request.Admissible (g : Geometry) : Request → Prop
  | read offset length => Flash.checkSlice g.capacity 1 offset length = .ok ()
  | write offset bytes => Flash.checkSlice g.capacity g.writeSize offset bytes.length = .ok ()
  | erase first last => Flash.checkRange g.capacity g.eraseSize first last = .ok ()
  | jump _ => True

/-- Whether a request is made of whole writes and whole pages. -/
def Request.Whole (g : Geometry) : Request → Prop
  | read _ _ => True
  | write offset bytes => g.writeSize ∣ offset ∧ g.writeSize ∣ bytes.length
  | erase first last => g.eraseSize ∣ first ∧ g.eraseSize ∣ last
  | jump _ => True

/-- Whole writes and pages inside the part have the right form. -/
theorem Request.Whole.admissible {g : Geometry} {request : Request}
    {readable writable : List Extent} (h : request.Whole g)
    (hwithin : request.Within readable writable)
    (hreadable : ∀ extent ∈ readable, extent.last ≤ g.capacity)
    (hwritable : ∀ extent ∈ writable, extent.last ≤ g.capacity) : request.Admissible g := by
  cases request with
  | read offset length =>
    obtain ⟨extent, hmem, hcovers⟩ := hwithin
    have hlast := hreadable extent hmem
    rw [Extent.Covers] at hcovers
    rw [Admissible, Flash.checkSlice, if_neg (by omega), if_neg (by omega)]
  | write offset bytes =>
    obtain ⟨extent, hmem, hcovers⟩ := hwithin
    have hlast := hwritable extent hmem
    have hoffset := Nat.mod_eq_zero_of_dvd h.1
    have hlength := Nat.mod_eq_zero_of_dvd h.2
    rw [Extent.Covers] at hcovers
    rw [Admissible, Flash.checkSlice, if_neg (by omega), if_neg (by omega)]
  | erase first last =>
    obtain ⟨horder, extent, hmem, -, hend⟩ := hwithin
    have hlast := hwritable extent hmem
    have hfirst := Nat.mod_eq_zero_of_dvd h.1
    have hwhole := Nat.mod_eq_zero_of_dvd h.2
    rw [Admissible, Flash.checkRange, if_neg (by omega), if_neg (by omega)]
  | jump target => trivial

namespace Flash

variable {g : Geometry}

/-- A planned fault is met, and then it is gone; or it stays planned, if there is one. -/
theorem takeFault_cases (flash : Flash g) (operation : FlashOperation) :
    flash.takeFault operation = (true, { flash with fault := none })
      ∨ ∃ fault, flash.takeFault operation = (false, { flash with fault })
        ∧ (fault = none ↔ flash.fault = none) := by
  rw [takeFault]
  cases hfault : flash.fault with
  | none =>
    refine .inr ⟨none, ?_, iff_of_true rfl rfl⟩
    show (false, flash) = (false, { flash with fault := none })
    rw [← hfault]
  | some planned =>
    dsimp only
    by_cases hother : planned.operation ≠ operation
    · rw [if_pos hother]
      refine .inr ⟨some planned, ?_, Iff.rfl⟩
      rw [← hfault]
    · rw [if_neg hother]
      cases planned.skip with
      | zero => exact .inl rfl
      | succ skip =>
        exact .inr ⟨_, rfl, by simp⟩

/-- A read of the right form gives as many bytes as were asked for, or fails. -/
theorem read_admissible (flash : Flash g) {offset length : Nat}
    (h : (Request.read offset length).Admissible g) :
    (flash.read offset length).1 = .error .other
      ∨ (∃ bytes, (flash.read offset length).1 = .ok bytes ∧ bytes.length = length)
        ∧ ((flash.read offset length).2.fault = none → flash.fault = none) := by
  have hcheck : checkSlice g.capacity 1 offset length = .ok () := h
  rcases flash.takeFault_cases .read with htake | ⟨fault, htake, hiff⟩
  · left
    simp only [read, hcheck, htake, if_true]
  · right
    have hanswer : flash.read offset length
        = (.ok (flash.slice offset length), { flash with fault }) := by
      simp only [read, hcheck, htake, Bool.false_eq_true, if_false]
      rfl
    refine ⟨⟨_, congrArg Prod.fst hanswer, length_of_read (congrArg Prod.fst hanswer)⟩, ?_⟩
    rw [hanswer]
    exact hiff.1

/-- A write of the right form is done, or fails. -/
theorem write_admissible (flash : Flash g) {offset : Nat} {bytes : Bytes}
    (h : (Request.write offset bytes).Admissible g) :
    (flash.write offset bytes).1 = .error .other
      ∨ (flash.write offset bytes).1 = .ok ()
        ∧ ((flash.write offset bytes).2.fault = none → flash.fault = none) := by
  have hcheck : checkSlice g.capacity g.writeSize offset (flash.takeGlitch bytes).1.length
      = .ok () := by
    rw [(takeGlitch_spec flash bytes).1]
    exact h
  have hplanned : (flash.takeGlitch bytes).2.fault = flash.fault := by
    rw [takeGlitch]
    split <;> rfl
  rcases (flash.takeGlitch bytes).2.takeFault_cases .write with htake | ⟨fault, htake, hiff⟩
  · left
    simp only [write, hcheck, htake, Bool.true_or, if_true]
  · rw [hplanned] at hiff
    simp only [write, hcheck, htake, Bool.false_or]
    split
    · exact .inl rfl
    · exact .inr ⟨rfl, hiff.1⟩

/-- An erasure of the right form is done, or fails. -/
theorem erase_admissible (flash : Flash g) {first last : Nat}
    (h : (Request.erase first last).Admissible g) :
    (flash.erase first last).1 = .error .other
      ∨ (flash.erase first last).1 = .ok ()
        ∧ ((flash.erase first last).2.fault = none → flash.fault = none) := by
  have hcheck : checkRange g.capacity g.eraseSize first last = .ok () := h
  rcases flash.takeFault_cases .erase with htake | ⟨fault, htake, hiff⟩
  · left
    simp only [erase, hcheck, htake, if_true]
  · right
    simp only [erase, hcheck, htake, Bool.false_eq_true, if_false]
    exact ⟨trivial, hiff.1⟩

end Flash

/-! ## Stopping at the first failure -/

namespace Procedure

variable {α β : Type} {g : Geometry} {fault? : α → Option Fault} {fault?' : β → Option Fault}
  {result : α → Prop} {result' : β → Prop}

/-- The procedure is at its end, and reports a fault. -/
def Reports (fault? : α → Option Fault) (fault : Fault) : Procedure α → Prop
  | done a => fault? a = some fault
  | _ => False

/-- Requests are made of whole writes and whole pages. Where one fails, that is what is reported,
and nothing more is done. At any other end no flash fault is reported, and the result is as
`result` says. -/
def Orderly (g : Geometry) (fault? : α → Option Fault) (result : α → Prop) : Procedure α → Prop
  | done a => Fault.IsVerdict (fault? a) ∧ result a
  | read _ length next =>
    (∀ bytes, bytes.length = length → Orderly g fault? result (next (.ok bytes)))
      ∧ (next (.error .other)).Reports fault? (.flash FlashOperation.read.failure)
  | write offset bytes next => (Request.write offset bytes).Whole g
    ∧ Orderly g fault? result (next (.ok ()))
    ∧ (next (.error .other)).Reports fault? (.flash FlashOperation.write.failure)
  | erase first last next => (Request.erase first last).Whole g
    ∧ Orderly g fault? result (next (.ok ()))
    ∧ (next (.error .other)).Reports fault? (.flash FlashOperation.erase.failure)
  | jump _ next => Orderly g fault? result next

theorem orderly_pure {a : α} (hverdict : Fault.IsVerdict (fault? a)) (h : result a) :
    (pure a : Procedure α).Orderly g fault? result :=
  ⟨hverdict, h⟩

theorem Reports.bind {procedure : Procedure α} {next : α → Procedure β} {fault fault' : Fault}
    (h : procedure.Reports fault? fault)
    (hnext : ∀ a, fault? a = some fault → (next a).Reports fault?' fault') :
    (procedure >>= next).Reports fault?' fault' := by
  cases procedure with
  | done a => exact hnext a h
  | _ => exact h.elim

/-- What goes on behind an orderly procedure is orderly if it passes failures of requests on. -/
theorem Orderly.bind {procedure : Procedure α} {next : α → Procedure β}
    (h : procedure.Orderly g fault? result)
    (hnext : ∀ a, Fault.IsVerdict (fault? a) → result a → (next a).Orderly g fault?' result')
    (hfailed : ∀ a operation, fault? a = some (.flash (FlashOperation.failure operation)) →
      (next a).Reports fault?' (.flash operation.failure)) :
    (procedure >>= next).Orderly g fault?' result' := by
  induction procedure with
  | done a => exact hnext a h.1 h.2
  | read offset length step ih =>
    exact ⟨fun bytes hlength => ih _ (h.1 bytes hlength), h.2.bind fun a => hfailed a .read⟩
  | write offset bytes step ih => exact ⟨h.1, ih _ h.2.1, h.2.2.bind fun a => hfailed a .write⟩
  | erase first last step ih => exact ⟨h.1, ih _ h.2.1, h.2.2.bind fun a => hfailed a .erase⟩
  | jump target step ih => exact ih h

/-- What is made of the result of an orderly procedure is orderly if it reports the same. -/
theorem Orderly.map {procedure : Procedure α} {f : α → β} (h : procedure.Orderly g fault? result)
    (hfault : ∀ a, fault?' (f a) = fault? a) :
    (procedure >>= fun a => pure (f a)).Orderly g fault?' fun _ => True :=
  h.bind (fun a hverdict _ => orderly_pure ((hfault a).symm ▸ hverdict) trivial)
    fun a _ hfailed => (hfault a).trans hfailed

/-- How an orderly procedure ends: it reports a request that failed; or it finds no fault with
flash, and then a fault that was planned has not been met. -/
def Settles (fault? : α → Option Fault) (before : Flash g) (a : α) (after : Flash g) : Prop :=
  (∃ operation : FlashOperation, fault? a = some (.flash operation.failure))
    ∨ Fault.IsVerdict (fault? a) ∧ (after.fault = none → before.fault = none)

theorem Settles.behind {before mid after : Flash g} {a : α} (h : Settles fault? mid a after)
    (hpending : mid.fault = none → before.fault = none) : Settles fault? before a after :=
  h.imp id fun hlast => ⟨hlast.1, fun hnone => hpending (hlast.2 hnone)⟩

/-- Neither is a request found to be of the wrong form. -/
theorem Settles.ne_form {before after : Flash g} {a : α} (h : Settles fault? before a after) :
    fault? a ≠ some (.flash .notAligned) ∧ fault? a ≠ some (.flash .outOfBounds) := by
  rcases h with ⟨operation, hfailed⟩ | ⟨hverdict, -⟩
  · rw [hfailed]
    cases operation <;> exact ⟨nofun, nofun⟩
  · exact ⟨hverdict .notAligned, hverdict .outOfBounds⟩

theorem Reports.ensures {procedure : Procedure α} {operation : FlashOperation}
    {during : Request → Device g → Prop} (h : procedure.Reports fault? (.flash operation.failure))
    (before : Flash g) (device : Device g) :
    procedure.Ensures device during (fun a last => Settles fault? before a last.flash) := by
  cases procedure with
  | done a => exact ⟨nofun, .inl ⟨operation, h⟩⟩
  | _ => exact h.elim

/-- In an orderly procedure inside the part every request has the right form. What it reports of
flash is a request that failed, and that it does report if it has met a planned fault. -/
theorem Orderly.ensures {procedure : Procedure α} {readable writable : List Extent}
    {asked : α → Prop} (h : procedure.Orderly g fault? result)
    (hasks : procedure.Asks (Request.Within readable writable) asked)
    (hreadable : ∀ extent ∈ readable, extent.last ≤ g.capacity)
    (hwritable : ∀ extent ∈ writable, extent.last ≤ g.capacity) (device : Device g) :
    procedure.Ensures device (fun request _ => request.Admissible g)
      (fun a last => Settles fault? device.flash a last.flash) := by
  -- The device changes with every request; `Settles` is about the one that the whole began on.
  induction procedure generalizing device with
  | done a => exact ⟨nofun, .inr ⟨h.1, id⟩⟩
  | read offset length next ih =>
    have hadmissible : (Request.read offset length).Admissible g :=
      Request.Whole.admissible trivial hasks.1 hreadable hwritable
    have hasked := hasks.after_read device.flash
    refine ensures_read hadmissible ?_
    -- Either the read fails and is reported, or the planned fault is still to be met behind it.
    rcases device.flash.read_admissible hadmissible with
      hfailed | ⟨⟨bytes, hbytes, hlength⟩, hpending⟩
    · rw [hfailed]
      exact h.2.ensures _ _
    · rw [hbytes] at hasked ⊢
      exact (ih _ (h.1 bytes hlength) hasked _).imp (fun _ _ => id) fun _ _ h => h.behind hpending
  | write offset bytes next ih =>
    have hadmissible : (Request.write offset bytes).Admissible g :=
      Request.Whole.admissible h.1 hasks.1 hreadable hwritable
    refine ensures_write hadmissible ?_
    rcases device.flash.write_admissible hadmissible with hfailed | ⟨hdone, hpending⟩
    · rw [hfailed]
      exact h.2.2.ensures _ _
    · rw [hdone]
      exact (ih _ h.2.1 (hasks.2 _) _).imp (fun _ _ => id) fun _ _ h => h.behind hpending
  | erase first last next ih =>
    have hadmissible : (Request.erase first last).Admissible g :=
      Request.Whole.admissible h.1 hasks.1 hreadable hwritable
    refine ensures_erase hadmissible ?_
    rcases device.flash.erase_admissible hadmissible with hfailed | ⟨hdone, hpending⟩
    · rw [hfailed]
      exact h.2.2.ensures _ _
    · rw [hdone]
      exact (ih _ h.2.1 (hasks.2 _) _).imp (fun _ _ => id) fun _ _ h => h.behind hpending
  | jump target next ih =>
    exact ensures_jump trivial (ih h hasks.2 { device with jumper := _ })

end Procedure

/-! ## Tasks -/

namespace FlashTask

variable {α β : Type} {g : Geometry} {ok : α → Prop}

/-- An orderly task is an orderly procedure that reports the fault it stops with, and what it
gives, if it gives anything, is as `ok` says. -/
def Orderly (task : FlashTask α) (g : Geometry) (ok : α → Prop) : Prop :=
  task.run.Orderly g Fault.ofResult? fun outcome => ∀ a, outcome = .ok a → ok a

theorem orderly_pure {a : α} (h : ok a) : (pure a : FlashTask α).Orderly g ok := by
  refine ⟨Fault.isVerdict_none, ?_⟩
  rintro _ ⟨⟩
  exact h

theorem orderly_throw {fault : Fault} (h : ∀ cause, fault ≠ .flash cause) :
    (throw fault : FlashTask α).Orderly g ok :=
  ⟨fun cause heq => h cause (Option.some.inj heq), nofun⟩

theorem Orderly.bind {task : FlashTask α} {next : α → FlashTask β} {ok' : β → Prop}
    (h : task.Orderly g ok) (hnext : ∀ a, ok a → (next a).Orderly g ok') :
    (task >>= next).Orderly g ok' := by
  refine Procedure.Orderly.bind h ?_ ?_
  · intro outcome hverdict hresult
    cases outcome with
    | ok a => exact hnext a (hresult a rfl)
    | error fault => exact ⟨hverdict, nofun⟩
  · intro outcome operation hfailed
    cases outcome with
    | ok a => cases hfailed
    | error fault => exact hfailed

/-- A task as part of a procedure that reports its fault and does nothing more then. -/
theorem Orderly.run {task : FlashTask α} {next : Except Fault α → Procedure β}
    {fault? : β → Option Fault} {result : β → Prop} (h : task.Orderly g ok)
    (hok : ∀ a, ok a → (next (.ok a)).Orderly g fault? result)
    (herr : ∀ fault, ∃ b, next (.error fault) = pure b ∧ fault? b = some fault ∧ result b) :
    (task.run >>= next).Orderly g fault? result := by
  refine Procedure.Orderly.bind h ?_ ?_
  · intro outcome hverdict hresult
    cases outcome with
    | ok a => exact hok a (hresult a rfl)
    | error fault =>
      obtain ⟨b, hnext, hfault, hb⟩ := herr fault
      rw [hnext]
      exact Procedure.orderly_pure (hfault ▸ hverdict) hb
  · intro outcome operation hfailed
    cases outcome with
    | ok a => cases hfailed
    | error fault =>
      obtain ⟨b, hnext, hfault, -⟩ := herr fault
      rw [hnext]
      exact hfault.trans hfailed

theorem read_orderly (offset length : Nat) :
    (read offset length).Orderly g fun bytes => bytes.length = length := by
  refine ⟨fun bytes hlength => ⟨Fault.isVerdict_none, ?_⟩, rfl⟩
  rintro _ ⟨⟩
  exact hlength

theorem write_orderly {offset : Nat} {bytes : Bytes} (hoffset : g.writeSize ∣ offset)
    (hlength : g.writeSize ∣ bytes.length) : (write offset bytes).Orderly g fun _ => True :=
  ⟨⟨hoffset, hlength⟩, ⟨Fault.isVerdict_none, fun _ _ => trivial⟩, rfl⟩

theorem erase_orderly {first last : Nat} (hfirst : g.eraseSize ∣ first)
    (hlast : g.eraseSize ∣ last) : (erase first last).Orderly g fun _ => True :=
  ⟨⟨hfirst, hlast⟩, ⟨Fault.isVerdict_none, fun _ _ => trivial⟩, rfl⟩

end FlashTask

/-! ## Ranges of pages -/

namespace Pages

open FlashTask (read_orderly write_orderly erase_orderly orderly_pure)

variable {g : Geometry}

/-- What divides the size of the pieces and both ends of a range divides every piece. -/
theorem dvd_piece {d size first last : Nat} (hsize : d ∣ size) (hfirst : d ∣ first)
    (hlast : d ∣ last) {piece : Nat × Nat} (hmem : piece ∈ cut size first last) :
    d ∣ piece.1 ∧ d ∣ piece.2 := by
  obtain ⟨⟨k, hk⟩, -, hlength⟩ := mem_cut hmem
  have hstart : d ∣ piece.1 := hk ▸ Nat.dvd_add hfirst (Nat.dvd_mul_left_of_dvd hsize k)
  refine ⟨hstart, ?_⟩
  rcases Nat.le_total size (last - piece.1) with hle | hle
  · rwa [hlength, Nat.min_eq_left hle]
  · rw [hlength, Nat.min_eq_right hle]
    exact Nat.dvd_sub hlast hstart

theorem digest_orderly (offset : Nat) (pieces : List (Nat × Nat)) (digest : Crc32.Digest) :
    FlashTask.Orderly (pieces.foldlM (fun (digest : Crc32.Digest) (at', size) => do
        let bytes ← FlashTask.read (offset + at') size
        pure (digest.update bytes)) digest) g fun _ => True := by
  induction pieces generalizing digest with
  | nil => exact orderly_pure trivial
  | cons piece pieces ih =>
    rw [List.foldlM_cons]
    have hread : FlashTask.Orderly (FlashTask.read (offset + piece.1) piece.2 >>= fun bytes =>
        pure (digest.update bytes)) g fun _ => True :=
      (read_orderly _ _).bind fun _ _ => orderly_pure trivial
    exact hread.bind fun digest' _ => ih digest'

theorem crc_orderly (offset length : Nat) : (crc offset length).Orderly g fun _ => True :=
  (digest_orderly offset _ {}).bind fun _ _ => orderly_pure trivial

theorem arePiecesBlank_orderly (offset : Nat) (pieces : List (Nat × Nat)) :
    (arePiecesBlank offset pieces).Orderly g fun _ => True := by
  induction pieces with
  | nil => exact orderly_pure trivial
  | cons piece pieces ih =>
    refine (read_orderly _ _).bind fun bytes _ => ?_
    show FlashTask.Orderly (if _ then pure false else arePiecesBlank offset pieces) _ _
    split
    · exact orderly_pure trivial
    · exact ih

theorem isBlank_orderly (offset length : Nat) : (isBlank offset length).Orderly g fun _ => True :=
  arePiecesBlank_orderly offset _

theorem copyPieces_orderly (source : Nat) {destination : Nat} {pieces : List (Nat × Nat)}
    (h : ∀ piece ∈ pieces, g.writeSize ∣ destination + piece.1 ∧ g.writeSize ∣ piece.2) :
    (copyPieces source destination pieces).Orderly g fun _ => True := by
  induction pieces with
  | nil => exact orderly_pure trivial
  | cons piece pieces ih =>
    obtain ⟨⟨hoffset, hsize⟩, hpieces⟩ := List.forall_mem_cons.1 h
    refine (read_orderly _ _).bind fun bytes hlength => ?_
    exact (write_orderly hoffset (hlength ▸ hsize)).bind fun _ _ => ih hpieces

theorem copyEach_orderly (hwrite : g.writeSize ∣ g.eraseSize) (hblock : g.writeSize ∣ blockSize)
    (source : Nat) {destination : Nat} (hdestination : g.eraseSize ∣ destination) (length : Nat)
    {pages : List (Nat × Nat)} (hpages : ∀ page ∈ pages, g.eraseSize ∣ page.1) :
    (copyEach g source destination length pages).Orderly g fun _ => True := by
  induction pages with
  | nil => exact orderly_pure trivial
  | cons page pages ih =>
    obtain ⟨hpage, hrest⟩ := List.forall_mem_cons.1 hpages
    have hnext : g.eraseSize ∣ page.1 + g.eraseSize := Nat.dvd_add hpage (Nat.dvd_refl _)
    -- A page is cut off where the pages of the image end, which is at the end of a page.
    have hlast : g.eraseSize ∣ min (page.1 + g.eraseSize) (span g length) := by
      rcases Nat.le_total (page.1 + g.eraseSize) (span g length) with hle | hle
      · rwa [Nat.min_eq_left hle]
      · rw [Nat.min_eq_right hle]
        exact dvd_span g length
    -- The page is erased as a whole and then programmed from its beginning in blocks.
    refine (erase_orderly (Nat.dvd_add hdestination hpage)
      (Nat.add_assoc destination _ _ ▸ Nat.dvd_add hdestination hnext)).bind fun _ _ => ?_
    refine (copyPieces_orderly source ?_).bind fun _ _ => ih hrest
    intro piece hmem
    obtain ⟨hoffset, hsize⟩ := dvd_piece hblock (Nat.dvd_trans hwrite hpage)
      (Nat.dvd_trans hwrite hlast) hmem
    exact ⟨Nat.dvd_add (Nat.dvd_trans hwrite hdestination) hoffset, hsize⟩

/-- A copy erases whole pages and programs whole writes. -/
theorem copy_orderly (hwrite : g.writeSize ∣ g.eraseSize) (hblock : g.writeSize ∣ blockSize)
    (source : Nat) {destination : Nat} (hdestination : g.eraseSize ∣ destination)
    (length : Nat) : (copy g source destination length).Orderly g fun _ => True := by
  refine copyEach_orderly hwrite hblock source hdestination length ?_
  intro page hmem
  obtain ⟨⟨k, hk⟩, -⟩ := mem_cut hmem
  exact ⟨k, by rw [hk, Nat.zero_add, Nat.mul_comm]⟩

end Pages

/-! ## Faults that are not met -/

/-- The part with nothing planned to fail. -/
def Flash.spared {g : Geometry} (flash : Flash g) : Flash g :=
  { flash with fault := none }

def Device.spared {g : Geometry} (device : Device g) : Device g :=
  { device with flash := device.flash.spared }

namespace Flash

variable {g : Geometry} {flash : Flash g}

/-- A request that meets no planned fault is answered as if none were planned. -/
theorem read_spared {offset length : Nat} (h : (flash.read offset length).2.fault ≠ none) :
    flash.spared.read offset length
      = ((flash.read offset length).1, (flash.read offset length).2.spared) := by
  have htakes : flash.spared.takeFault .read = (false, flash.spared) := rfl
  simp only [read] at h ⊢
  cases hcheck : checkSlice g.capacity 1 offset length with
  | error error => rfl
  | ok _ =>
    rw [hcheck] at h
    rcases flash.takeFault_cases .read with htake | ⟨fault, htake, -⟩
    · rw [htake] at h
      exact absurd rfl h
    · rw [htake, htakes]
      rfl

theorem write_spared {offset : Nat} {bytes : Bytes}
    (h : (flash.write offset bytes).2.fault ≠ none) :
    flash.spared.write offset bytes
      = ((flash.write offset bytes).1, (flash.write offset bytes).2.spared) := by
  have hglitch : flash.spared.takeGlitch bytes
      = ((flash.takeGlitch bytes).1, (flash.takeGlitch bytes).2.spared) := by
    rw [takeGlitch, takeGlitch, show flash.spared.glitch = flash.glitch from rfl]
    split <;> rfl
  have htakes : (flash.takeGlitch bytes).2.spared.takeFault .write
      = (false, (flash.takeGlitch bytes).2.spared) := rfl
  simp only [write, hglitch] at h ⊢
  cases hcheck : checkSlice g.capacity g.writeSize offset (flash.takeGlitch bytes).1.length with
  | error error => rfl
  | ok _ =>
    rw [hcheck] at h
    rcases (flash.takeGlitch bytes).2.takeFault_cases .write with htake | ⟨fault, htake, -⟩
    · simp only [htake, Bool.true_or, if_true] at h
      exact absurd rfl h
    · -- Whether a bit would have to be raised is seen from the memory alone.
      have hraises : raises ((flash.takeGlitch bytes).2.spared.slice offset
            (flash.takeGlitch bytes).1.length) (flash.takeGlitch bytes).1
          = raises (Flash.slice { (flash.takeGlitch bytes).2 with fault } offset
            (flash.takeGlitch bytes).1.length) (flash.takeGlitch bytes).1 := rfl
      simp only [htake, htakes, Bool.false_or, hraises]
      split <;> rfl

theorem erase_spared {first last : Nat} (h : (flash.erase first last).2.fault ≠ none) :
    flash.spared.erase first last
      = ((flash.erase first last).1, (flash.erase first last).2.spared) := by
  have htakes : flash.spared.takeFault .erase = (false, flash.spared) := rfl
  simp only [erase] at h ⊢
  cases hcheck : checkRange g.capacity g.eraseSize first last with
  | error error => rfl
  | ok _ =>
    rw [hcheck] at h
    rcases flash.takeFault_cases .erase with htake | ⟨fault, htake, -⟩
    · rw [htake] at h
      exact absurd rfl h
    · rw [htake, htakes]
      rfl

/-- Requests plan no faults. -/
theorem takeFault_calm (h : flash.fault = none) (operation : FlashOperation) :
    (flash.takeFault operation).2.fault = none := by
  rw [takeFault, h]
  exact h

theorem read_calm (h : flash.fault = none) (offset length : Nat) :
    (flash.read offset length).2.fault = none := by
  rw [read_flash h]
  exact h

theorem write_calm (h : flash.fault = none) (offset : Nat) (bytes : Bytes) :
    (flash.write offset bytes).2.fault = none := by
  have hglitch : (flash.takeGlitch bytes).2.fault = none := by
    rw [takeGlitch]
    split <;> exact h
  have hafter := takeFault_calm hglitch .write
  simp only [write]
  split
  · exact hglitch
  · split <;> exact hafter

theorem erase_calm (h : flash.fault = none) (first last : Nat) :
    (flash.erase first last).2.fault = none := by
  have hafter := takeFault_calm h .erase
  simp only [erase]
  split
  · exact h
  · split <;> exact hafter

end Flash

namespace Procedure

variable {α : Type} {g : Geometry} {device : Device g}

/-- A run plans no faults. -/
theorem run_calm (procedure : Procedure α) (h : device.flash.fault = none) :
    (procedure.run device).2.flash.fault = none := by
  induction procedure generalizing device with
  | done a => exact h
  | read offset length next ih => exact ih _ (Flash.read_calm h offset length)
  | write offset bytes next ih => exact ih _ (Flash.write_calm h offset bytes)
  | erase first last next ih => exact ih _ (Flash.erase_calm h first last)
  | jump target next ih => exact ih h

/-- A run that does not meet the planned fault is the run on a part with nothing planned to
fail. -/
theorem run_spared (procedure : Procedure α) (h : (procedure.run device).2.flash.fault ≠ none) :
    procedure.run device.spared
      = ((procedure.run device).1, (procedure.run device).2.spared) := by
  -- If a fault is still planned at the end, it was planned all along, and no request has met it.
  induction procedure generalizing device with
  | done a => rfl
  | read offset length next ih =>
    have hrest : ((next (device.flash.read offset length).1).run
        { device with flash := (device.flash.read offset length).2 }).2.flash.fault ≠ none := h
    have hmid : (device.flash.read offset length).2.fault ≠ none := fun hnone =>
      hrest (run_calm _ hnone)
    show (next (device.flash.spared.read offset length).1).run
      { device with flash := (device.flash.spared.read offset length).2 } = _
    rw [Flash.read_spared hmid]
    exact ih _ hrest
  | write offset bytes next ih =>
    have hrest : ((next (device.flash.write offset bytes).1).run
        { device with flash := (device.flash.write offset bytes).2 }).2.flash.fault ≠ none := h
    have hmid : (device.flash.write offset bytes).2.fault ≠ none := fun hnone =>
      hrest (run_calm _ hnone)
    show (next (device.flash.spared.write offset bytes).1).run
      { device with flash := (device.flash.spared.write offset bytes).2 } = _
    rw [Flash.write_spared hmid]
    exact ih _ hrest
  | erase first last next ih =>
    have hrest : ((next (device.flash.erase first last).1).run
        { device with flash := (device.flash.erase first last).2 }).2.flash.fault ≠ none := h
    have hmid : (device.flash.erase first last).2.fault ≠ none := fun hnone =>
      hrest (run_calm _ hnone)
    show (next (device.flash.spared.erase first last).1).run
      { device with flash := (device.flash.spared.erase first last).2 } = _
    rw [Flash.erase_spared hmid]
    exact ih _ hrest
  | jump target next ih =>
    exact ih h

/-- Whether a run meets the planned fault. -/
def Meets (procedure : Procedure α) (device : Device g) : Prop :=
  device.flash.fault ≠ none ∧ (procedure.run device).2.flash.fault = none

/-- A planned fault makes no difference to a run that does not meet it. -/
theorem run_of_not_meets {procedure : Procedure α} (h : ¬procedure.Meets device) :
    procedure.run device.spared
      = ((procedure.run device).1, (procedure.run device).2.spared) := by
  by_cases hlast : (procedure.run device).2.flash.fault = none
  · -- No fault was planned, and none is.
    have hfault : device.flash.fault = none :=
      Decidable.of_not_not fun hplanned => h ⟨hplanned, hlast⟩
    have hspared : ∀ {d : Device g}, d.flash.fault = none → d.spared = d := by
      rintro ⟨flash, jumper⟩ hnone
      show Device.mk { flash with fault := none } jumper = _
      rw [← show flash.fault = none from hnone]
    rw [hspared hfault, hspared hlast]
  · exact run_spared procedure hlast

end Procedure

end Reflash
