/-
  Reflash.Proofs.Flash.Footprint

  Where a procedure reads, programs and erases, whatever the part holds and whichever
  requests fail. `Procedure.Asks` looks at the procedure alone and goes through every
  answer that a part could give; from it follows at once where all requests of a run
  lie, that nothing outside the writable stretches is changed, and that a procedure
  which only reads cannot tell two parts apart that agree on what it may read.
-/
import Reflash.Proofs.Install.Layout

namespace Reflash

/-! ## Requests within stretches -/

/-- Whether a range lies inside a stretch. -/
def Extent.Covers (extent : Extent) (offset length : Nat) : Prop :=
  extent.first ≤ offset ∧ offset + length ≤ extent.last

/-- A read lies in one of the readable stretches, and what is programmed or erased in one of the
writable ones. -/
def Request.Within (readable writable : List Extent) : Request → Prop
  | read offset length => ∃ extent ∈ readable, extent.Covers offset length
  | write offset bytes => ∃ extent ∈ writable, extent.Covers offset bytes.length
  | erase first last => first ≤ last
      ∧ ∃ extent ∈ writable, extent.first ≤ first ∧ last ≤ extent.last
  | jump _ => True

theorem Request.Within.widen {readable writable wider : List Extent} {request : Request}
    (h : request.Within readable writable) (hsub : ∀ extent ∈ writable, extent ∈ wider) :
    request.Within readable wider := by
  cases request with
  | read offset length => exact h
  | write offset bytes =>
    obtain ⟨extent, hmem, hcovers⟩ := h
    exact ⟨extent, hsub extent hmem, hcovers⟩
  | erase first last =>
    obtain ⟨horder, extent, hmem, hcovers⟩ := h
    exact ⟨horder, extent, hsub extent hmem, hcovers⟩
  | jump target => trivial

theorem Request.Within.reading {readable wider writable : List Extent} {request : Request}
    (h : request.Within readable writable) (hsub : ∀ extent ∈ readable, extent ∈ wider) :
    request.Within wider writable := by
  cases request with
  | read offset length =>
    obtain ⟨extent, hmem, hcovers⟩ := h
    exact ⟨extent, hsub extent hmem, hcovers⟩
  | write offset bytes => exact h
  | erase first last => exact h
  | jump target => trivial

namespace Procedure

variable {α β : Type} {g : Geometry} {allowed allowed' : Request → Prop} {result : α → Prop}

/-! ## All requests of a procedure -/

/-- Whatever a part answers, every request is allowed and what comes out is as `result` says. A
read that succeeds gives as many bytes as were asked for. -/
def Asks (allowed : Request → Prop) (result : α → Prop) : Procedure α → Prop
  | done a => result a
  | read offset length next => allowed (.read offset length)
      ∧ (∀ bytes, bytes.length = length → Asks allowed result (next (.ok bytes)))
      ∧ ∀ error, Asks allowed result (next (.error error))
  | write offset bytes next => allowed (.write offset bytes)
      ∧ ∀ answer, Asks allowed result (next answer)
  | erase first last next => allowed (.erase first last)
      ∧ ∀ answer, Asks allowed result (next answer)
  | jump target next => allowed (.jump target) ∧ Asks allowed result next

theorem asks_pure {a : α} (h : result a) : (pure a : Procedure α).Asks allowed result := h

theorem Asks.imp {procedure : Procedure α} {result' : α → Prop}
    (h : procedure.Asks allowed result) (hallowed : ∀ request, allowed request → allowed' request)
    (hresult : ∀ a, result a → result' a) : procedure.Asks allowed' result' := by
  induction procedure with
  | done a => exact hresult a h
  | read offset length next ih =>
    exact ⟨hallowed _ h.1, fun bytes hlength => ih _ (h.2.1 bytes hlength),
      fun error => ih _ (h.2.2 error)⟩
  | write offset bytes next ih => exact ⟨hallowed _ h.1, fun answer => ih _ (h.2 answer)⟩
  | erase first last next ih => exact ⟨hallowed _ h.1, fun answer => ih _ (h.2 answer)⟩
  | jump target next ih => exact ⟨hallowed _ h.1, ih h.2⟩

theorem Asks.bind {procedure : Procedure α} {next : α → Procedure β} {result' : β → Prop}
    (h : procedure.Asks allowed result) (hnext : ∀ a, result a → (next a).Asks allowed result') :
    (procedure >>= next).Asks allowed result' := by
  induction procedure with
  | done a => exact hnext a h
  | read offset length step ih =>
    exact ⟨h.1, fun bytes hlength => ih _ (h.2.1 bytes hlength), fun error => ih _ (h.2.2 error)⟩
  | write offset bytes step ih => exact ⟨h.1, fun answer => ih _ (h.2 answer)⟩
  | erase first last step ih => exact ⟨h.1, fun answer => ih _ (h.2 answer)⟩
  | jump target step ih => exact ⟨h.1, ih h.2⟩

/-- What a procedure asks for does not depend on what is made of its result. -/
theorem Asks.of_map {procedure : Procedure α} {f : α → β} {result' : β → Prop}
    (h : (procedure >>= fun a => pure (f a)).Asks allowed result') :
    procedure.Asks allowed fun a => result' (f a) := by
  induction procedure with
  | done a => exact h
  | read offset length step ih =>
    exact ⟨h.1, fun bytes hlength => ih _ (h.2.1 bytes hlength), fun error => ih _ (h.2.2 error)⟩
  | write offset bytes step ih => exact ⟨h.1, fun answer => ih _ (h.2 answer)⟩
  | erase first last step ih => exact ⟨h.1, fun answer => ih _ (h.2 answer)⟩
  | jump target step ih => exact ⟨h.1, ih h.2⟩

end Procedure

/-! ## Parts that differ within stretches -/

namespace Flash

variable {g : Geometry}

/-- `after` differs from `before` within the extents only. -/
def SameOutside (extents : List Extent) (before after : Flash g) : Prop :=
  ∀ place, (∀ extent ∈ extents, extent.Excludes place) →
    after.memory[place]? = before.memory[place]?

theorem SameOutside.refl (extents : List Extent) (flash : Flash g) :
    SameOutside extents flash flash :=
  fun _ _ => rfl

theorem sameOutside_of_memory_eq {before after : Flash g} (h : after.memory = before.memory)
    (extents : List Extent) : SameOutside extents before after :=
  fun _ _ => by rw [h]

/-- Nothing is outside of no extents. -/
theorem SameOutside.memory_eq {before after : Flash g} (h : SameOutside [] before after) :
    after.memory = before.memory :=
  memory_ext fun place _ => h place nofun

theorem SameOutside.trans {a b c : Flash g} {extents : List Extent}
    (h : SameOutside extents a b) (h' : SameOutside extents b c) : SameOutside extents a c :=
  fun place hout => (h' place hout).trans (h place hout)

theorem SameOutside.widen {a b : Flash g} {extents wider : List Extent}
    (h : SameOutside extents a b) (hsub : ∀ extent ∈ extents, extent ∈ wider) :
    SameOutside wider a b :=
  fun place hout => h place fun extent hmem => hout extent (hsub extent hmem)

theorem SameOutside.slice_eq {before after : Flash g} {extents : List Extent}
    (h : SameOutside extents before after) {offset length : Nat}
    (hclear : ∀ extent ∈ extents, extent.Clear offset length) :
    after.slice offset length = before.slice offset length := by
  apply slice_congr
  intro place hlow hhigh
  apply h
  intro extent hmem
  have hrange := hclear extent hmem
  rw [Extent.Clear] at hrange
  rw [Extent.Excludes]
  omega

/-- A patch inside an extent. -/
theorem sameOutside_of_patch {before after : Flash g} {extents : List Extent} {extent : Extent}
    {offset : Nat} (bytes : Bytes) (hmemory : after.memory = patch before.memory offset bytes)
    (hmem : extent ∈ extents) (hcovers : extent.Covers offset bytes.length) :
    SameOutside extents before after := by
  intro place hout
  have hplace := hout extent hmem
  rw [Extent.Excludes] at hplace
  rw [Extent.Covers] at hcovers
  rw [hmemory, getElem?_patch_outside _ (by omega)]

/-! ## Single requests, whatever is planned to go wrong -/

theorem takeFault_memory (flash : Flash g) (operation : FlashOperation) :
    (flash.takeFault operation).2.memory = flash.memory := by
  rw [takeFault]
  split
  · rfl
  · split
    · rfl
    · split <;> rfl

theorem takeGlitch_spec (flash : Flash g) (bytes : Bytes) :
    (flash.takeGlitch bytes).1.length = bytes.length
      ∧ (flash.takeGlitch bytes).2.memory = flash.memory := by
  rw [takeGlitch]
  split
  · exact ⟨rfl, rfl⟩
  · exact ⟨List.length_modifyHead, rfl⟩
  · exact ⟨rfl, rfl⟩

theorem read_memory (flash : Flash g) (offset length : Nat) :
    (flash.read offset length).2.memory = flash.memory := by
  simp only [read]
  split
  · rfl
  · split
    · exact takeFault_memory flash .read
    · exact takeFault_memory flash .read

/-- A read that succeeds gives as many bytes as were asked for. -/
theorem length_of_read {flash : Flash g} {offset length : Nat} {bytes : Bytes}
    (h : (flash.read offset length).1 = .ok bytes) : bytes.length = length := by
  simp only [read, checkSlice] at h
  by_cases hfit : offset + length ≤ g.capacity
  · by_cases hfailed : (flash.takeFault .read).1 = true
    · rw [if_neg (by omega), if_neg (by omega)] at h
      simp [hfailed] at h
    · rw [if_neg (by omega), if_neg (by omega)] at h
      simp only [hfailed] at h
      cases h
      exact length_slice hfit
  · rw [if_pos (by omega)] at h
    cases h

/-- Without a planned fault, a read depends on what it reads only. -/
theorem read_congr {a b : Flash g} {offset length : Nat} (ha : a.fault = none)
    (hb : b.fault = none) (h : a.slice offset length = b.slice offset length) :
    (a.read offset length).1 = (b.read offset length).1 := by
  simp only [read, takeFault, ha, hb, h]
  split <;> rfl

theorem read_flash {flash : Flash g} {offset length : Nat} (h : flash.fault = none) :
    (flash.read offset length).2 = flash := by
  simp only [read, takeFault, h]
  split <;> rfl

theorem write_sameOutside (flash : Flash g) {extents : List Extent} {extent : Extent}
    {offset : Nat} {bytes : Bytes} (hmem : extent ∈ extents)
    (hcovers : extent.Covers offset bytes.length) :
    SameOutside extents flash (flash.write offset bytes).2 := by
  obtain ⟨hlength, hmemory⟩ := takeGlitch_spec flash bytes
  have hfault := takeFault_memory (flash.takeGlitch bytes).2 .write
  simp only [write]
  split
  · exact sameOutside_of_memory_eq hmemory _
  · split
    · exact sameOutside_of_memory_eq (hfault.trans hmemory) _
    · refine sameOutside_of_patch (flash.takeGlitch bytes).1 ?_ hmem
        (hlength ▸ hcovers)
      simp only [hfault, hmemory]

theorem erase_sameOutside (flash : Flash g) {extents : List Extent} {extent : Extent}
    {first last : Nat} (hmem : extent ∈ extents) (horder : first ≤ last)
    (hfirst : extent.first ≤ first) (hlast : last ≤ extent.last) :
    SameOutside extents flash (flash.erase first last).2 := by
  have hfault := takeFault_memory flash .erase
  simp only [erase]
  split
  · exact SameOutside.refl _ _
  · split
    · exact sameOutside_of_memory_eq hfault _
    · refine sameOutside_of_patch (List.replicate (last - first) erasedByte) ?_ hmem
        ⟨hfirst, by rw [List.length_replicate]; omega⟩
      simp only [hfault, blank_eq_patch]

theorem takeFault_glitch (flash : Flash g) (operation : FlashOperation) :
    (flash.takeFault operation).2.glitch = flash.glitch := by
  rw [takeFault]
  split
  · rfl
  · split
    · rfl
    · split <;> rfl

theorem read_glitch {flash : Flash g} (h : flash.glitch = none) (offset length : Nat) :
    (flash.read offset length).2.glitch = none := by
  simp only [read]
  split
  · exact h
  · split <;> exact (takeFault_glitch flash .read).trans h

theorem write_glitch {flash : Flash g} (h : flash.glitch = none) (offset : Nat) (bytes : Bytes) :
    (flash.write offset bytes).2.glitch = none := by
  simp only [write, takeGlitch, h]
  split
  · exact h
  · split <;> exact (takeFault_glitch flash .write).trans h

theorem erase_glitch {flash : Flash g} (h : flash.glitch = none) (first last : Nat) :
    (flash.erase first last).2.glitch = none := by
  simp only [erase]
  split
  · exact h
  · split <;> exact (takeFault_glitch flash .erase).trans h

end Flash

/-! ## What a footprint says of runs -/

namespace Procedure

variable {α β : Type} {g : Geometry} {allowed : Request → Prop} {result : α → Prop}
  {readable writable : List Extent}

/-- What is allowed behind a read is allowed behind the answer that a part gives. -/
theorem Asks.after_read {offset length : Nat} {next : Except DriverError Bytes → Procedure α}
    (h : (read offset length next).Asks allowed result) (flash : Flash g) :
    (next (flash.read offset length).1).Asks allowed result := by
  cases hanswer : (flash.read offset length).1 with
  | ok bytes => exact h.2.1 bytes (Flash.length_of_read hanswer)
  | error error => exact h.2.2 error

/-- All requests of a run are allowed, and its result is as the footprint says. -/
theorem Asks.ensures {procedure : Procedure α} (h : procedure.Asks allowed result)
    (device : Device g) :
    procedure.Ensures device (fun request _ => allowed request) (fun a _ => result a) := by
  induction procedure generalizing device with
  | done a => exact ⟨nofun, h⟩
  | read offset length next ih => exact ensures_read h.1 (ih _ (h.after_read device.flash) _)
  | write offset bytes next ih => exact ensures_write h.1 (ih _ (h.2 _) _)
  | erase first last next ih => exact ensures_erase h.1 (ih _ (h.2 _) _)
  | jump target next ih => exact ensures_jump h.1 (ih h.2 _)

/-- What one request leaves, and what the procedure goes on to leave from there. -/
theorem sameOutside_cons {request : Request} {next : Procedure α} {device device' : Device g}
    (hstep : Flash.SameOutside writable device.flash device'.flash)
    (hrest : next.Ensures device'
      (fun _ device'' => Flash.SameOutside writable device'.flash device''.flash)
      (fun _ device'' => Flash.SameOutside writable device'.flash device''.flash)) :
    (∀ step ∈ (request, device') :: next.trace device',
        Flash.SameOutside writable device.flash step.2.flash)
      ∧ Flash.SameOutside writable device.flash (next.run device').2.flash :=
  ⟨List.forall_mem_cons.2 ⟨hstep, fun step hmem => hstep.trans (hrest.1 step hmem)⟩,
    hstep.trans hrest.2⟩

/-- Nothing outside the writable stretches is ever changed. -/
theorem Asks.sameOutside {procedure : Procedure α}
    (h : procedure.Asks (Request.Within readable writable) result) (device : Device g) :
    procedure.Ensures device
      (fun _ device' => Flash.SameOutside writable device.flash device'.flash)
      (fun _ device' => Flash.SameOutside writable device.flash device'.flash) := by
  induction procedure generalizing device with
  | done a => exact ⟨nofun, Flash.SameOutside.refl _ _⟩
  | read offset length next ih =>
    exact sameOutside_cons (Flash.sameOutside_of_memory_eq (Flash.read_memory _ _ _) _)
      (ih _ (h.after_read device.flash) _)
  | write offset bytes next ih =>
    obtain ⟨⟨extent, hmem, hcovers⟩, hnext⟩ := h
    exact sameOutside_cons (Flash.write_sameOutside _ hmem hcovers) (ih _ (hnext _) _)
  | erase first last next ih =>
    obtain ⟨⟨horder, extent, hmem, hfirst, hlast⟩, hnext⟩ := h
    exact sameOutside_cons (Flash.erase_sameOutside _ hmem horder hfirst hlast) (ih _ (hnext _) _)
  | jump target next ih => exact sameOutside_cons (Flash.SameOutside.refl _ _) (ih h.2 _)

/-- What a run asks for and gives, and what it leaves. -/
theorem Asks.confined {procedure : Procedure α}
    (h : procedure.Asks (Request.Within readable writable) result) (device : Device g) :
    procedure.Ensures device
      (fun request device' => request.Within readable writable
        ∧ Flash.SameOutside writable device.flash device'.flash)
      (fun a device' => result a ∧ Flash.SameOutside writable device.flash device'.flash) :=
  ⟨fun step hmem => ⟨(h.ensures device).1 step hmem, (h.sameOutside device).1 step hmem⟩,
    (h.ensures device).2, (h.sameOutside device).2⟩

/-- A part that loses no bits goes on losing none. -/
theorem run_glitch (procedure : Procedure α) {device : Device g}
    (h : device.flash.glitch = none) : (procedure.run device).2.flash.glitch = none := by
  induction procedure generalizing device with
  | done a => exact h
  | read offset length next ih => exact ih _ (Flash.read_glitch h offset length)
  | write offset bytes next ih => exact ih _ (Flash.write_glitch h offset bytes)
  | erase first last next ih => exact ih _ (Flash.erase_glitch h first last)
  | jump target next ih => exact ih h

/-- A procedure that only reads gives the same on two parts that agree on what it may read, if
nothing is planned to fail on them. -/
theorem Asks.run_congr {procedure : Procedure α}
    (h : procedure.Asks (Request.Within readable []) result) {a b : Device g}
    (ha : a.flash.fault = none) (hb : b.flash.fault = none)
    (hagree : ∀ extent ∈ readable, ∀ offset length, extent.Covers offset length →
      a.flash.slice offset length = b.flash.slice offset length) :
    (procedure.run a).1 = (procedure.run b).1 := by
  induction procedure generalizing a b with
  | done a => rfl
  | read offset length next ih =>
    obtain ⟨extent, hmem, hcovers⟩ := h.1
    have hanswer : (b.flash.read offset length).1 = (a.flash.read offset length).1 :=
      Flash.read_congr hb ha (hagree extent hmem offset length hcovers).symm
    show ((next (a.flash.read offset length).1).run
        { a with flash := (a.flash.read offset length).2 }).1
      = ((next (b.flash.read offset length).1).run
        { b with flash := (b.flash.read offset length).2 }).1
    rw [hanswer, Flash.read_flash ha, Flash.read_flash hb]
    exact ih _ (h.after_read a.flash) ha hb hagree
  | write offset bytes next ih =>
    obtain ⟨extent, hmem, -⟩ := h.1
    cases hmem
  | erase first last next ih =>
    obtain ⟨-, extent, hmem, -⟩ := h.1
    cases hmem
  | jump target next ih => exact ih h.2 (a := { a with jumper := _ }) ha hb hagree

end Procedure

/-! ## Tasks -/

namespace FlashTask

variable {α β : Type} {allowed allowed' : Request → Prop} {ok : α → Prop}
  {readable writable : List Extent}

/-- Every request of a task is allowed, whatever a part answers, and the result, if there is one,
is as `ok` says. -/
def Asks (task : FlashTask α) (allowed : Request → Prop) (ok : α → Prop) : Prop :=
  task.run.Asks allowed fun outcome => ∀ a, outcome = .ok a → ok a

theorem asks_pure {a : α} (h : ok a) : (pure a : FlashTask α).Asks allowed ok := by
  rintro _ ⟨⟩
  exact h

theorem asks_throw (fault : Fault) : (throw fault : FlashTask α).Asks allowed ok := nofun

theorem Asks.imp {task : FlashTask α} {ok' : α → Prop} (h : task.Asks allowed ok)
    (hallowed : ∀ request, allowed request → allowed' request) (hok : ∀ a, ok a → ok' a) :
    task.Asks allowed' ok' :=
  Procedure.Asks.imp h hallowed fun _ hresult a heq => hok a (hresult a heq)

theorem Asks.bind {task : FlashTask α} {next : α → FlashTask β} {ok' : β → Prop}
    (h : task.Asks allowed ok) (hnext : ∀ a, ok a → (next a).Asks allowed ok') :
    (task >>= next).Asks allowed ok' := by
  refine Procedure.Asks.bind h ?_
  intro outcome hresult
  cases outcome with
  | ok a => exact hnext a (hresult a rfl)
  | error fault => exact asks_throw fault

/-- A task as part of a procedure that goes on either way. -/
theorem Asks.run {task : FlashTask α} {next : Except Fault α → Procedure β} {result : β → Prop}
    (h : task.Asks allowed ok) (hok : ∀ a, ok a → (next (.ok a)).Asks allowed result)
    (herr : ∀ fault, (next (.error fault)).Asks allowed result) :
    (task.run >>= next).Asks allowed result := by
  refine Procedure.Asks.bind h ?_
  intro outcome hresult
  cases outcome with
  | ok a => exact hok a (hresult a rfl)
  | error fault => exact herr fault

theorem read_asks {extent : Extent} (hmem : extent ∈ readable) {offset length : Nat}
    (hcovers : extent.Covers offset length) :
    (read offset length).Asks (Request.Within readable writable)
      fun bytes => bytes.length = length := by
  refine ⟨⟨extent, hmem, hcovers⟩, ?_, fun error => nofun⟩
  rintro bytes hlength _ ⟨⟩
  exact hlength

theorem write_asks {extent : Extent} (hmem : extent ∈ writable) {offset : Nat} {bytes : Bytes}
    (hcovers : extent.Covers offset bytes.length) :
    (write offset bytes).Asks (Request.Within readable writable) fun _ => True :=
  ⟨⟨extent, hmem, hcovers⟩, fun _ _ _ => trivial⟩

theorem erase_asks {extent : Extent} (hmem : extent ∈ writable) {first last : Nat}
    (horder : first ≤ last) (hfirst : extent.first ≤ first) (hlast : last ≤ extent.last) :
    (erase first last).Asks (Request.Within readable writable) fun _ => True :=
  ⟨⟨horder, extent, hmem, hfirst, hlast⟩, fun _ _ _ => trivial⟩

end FlashTask

/-! ## Ranges of pages -/

namespace Pages

open FlashTask (read_asks write_asks erase_asks asks_pure)

variable {g : Geometry} {readable writable : List Extent}

/-- The pieces of a range begin whole pieces from its beginning and go on to its end at most. -/
theorem mem_cut {size first last : Nat} {piece : Nat × Nat} (hmem : piece ∈ cut size first last) :
    (∃ k, piece.1 = first + k * size) ∧ piece.1 < last
      ∧ piece.2 = min size (last - piece.1) := by
  induction hn : last - first using Nat.strongRecOn generalizing first with
  | ind n ih =>
    by_cases hlt : first < last ∧ 0 < size
    · obtain ⟨hlt, hsize⟩ := hlt
      rw [cut_of_lt hlt hsize] at hmem
      rcases List.mem_cons.1 hmem with rfl | hmem
      · exact ⟨⟨0, by omega⟩, hlt, rfl⟩
      · obtain ⟨⟨k, hk⟩, hends⟩ := ih (last - (first + size)) (by omega) hmem rfl
        exact ⟨⟨k + 1, by rw [hk, Nat.succ_mul]; omega⟩, hends⟩
    · rw [cut, dif_neg hlt] at hmem
      cases hmem

theorem digest_asks {extent : Extent} (hmem : extent ∈ readable) (offset : Nat)
    {pieces : List (Nat × Nat)} (digest : Crc32.Digest)
    (h : ∀ piece ∈ pieces, extent.Covers (offset + piece.1) piece.2) :
    FlashTask.Asks (pieces.foldlM (fun (digest : Crc32.Digest) (at', size) => do
        let bytes ← FlashTask.read (offset + at') size
        pure (digest.update bytes)) digest)
      (Request.Within readable writable) fun _ => True := by
  induction pieces generalizing digest with
  | nil => exact asks_pure trivial
  | cons piece pieces ih =>
    obtain ⟨hpiece, hpieces⟩ := List.forall_mem_cons.1 h
    rw [List.foldlM_cons]
    have hread : FlashTask.Asks (FlashTask.read (offset + piece.1) piece.2 >>= fun bytes =>
        pure (digest.update bytes)) (Request.Within readable writable) fun _ => True :=
      (read_asks hmem hpiece).bind fun _ _ => asks_pure trivial
    exact hread.bind fun digest' _ => ih digest' hpieces

theorem covers_piece {extent : Extent} {size offset length : Nat}
    (hcovers : extent.Covers offset length) :
    ∀ piece ∈ cut size 0 length, extent.Covers (offset + piece.1) piece.2 := by
  intro piece hpiece
  obtain ⟨-, hlt, hsize⟩ := mem_cut hpiece
  rw [Extent.Covers] at hcovers ⊢
  omega

/-- A checksum reads inside its range. -/
theorem crc_asks {extent : Extent} (hmem : extent ∈ readable) {offset length : Nat}
    (hcovers : extent.Covers offset length) :
    (crc offset length).Asks (Request.Within readable writable) fun _ => True :=
  (digest_asks hmem offset {} (covers_piece hcovers)).bind fun _ _ => asks_pure trivial

theorem arePiecesBlank_asks {extent : Extent} (hmem : extent ∈ readable) (offset : Nat)
    {pieces : List (Nat × Nat)} (h : ∀ piece ∈ pieces, extent.Covers (offset + piece.1) piece.2) :
    (arePiecesBlank offset pieces).Asks (Request.Within readable writable) fun _ => True := by
  induction pieces with
  | nil => exact asks_pure trivial
  | cons piece pieces ih =>
    obtain ⟨hpiece, hpieces⟩ := List.forall_mem_cons.1 h
    refine (read_asks hmem hpiece).bind fun bytes _ => ?_
    show FlashTask.Asks (if _ then pure false else arePiecesBlank offset pieces) _ _
    split
    · exact asks_pure trivial
    · exact ih hpieces

/-- A blank check reads inside its range. -/
theorem isBlank_asks {extent : Extent} (hmem : extent ∈ readable) {offset length : Nat}
    (hcovers : extent.Covers offset length) :
    (isBlank offset length).Asks (Request.Within readable writable) fun _ => True :=
  arePiecesBlank_asks hmem offset (covers_piece hcovers)

theorem copyPieces_asks {source destination : Extent} (hsource : source ∈ readable)
    (hdestination : destination ∈ writable) {from' to' : Nat} {pieces : List (Nat × Nat)}
    (h : ∀ piece ∈ pieces, source.Covers (from' + piece.1) piece.2
      ∧ destination.Covers (to' + piece.1) piece.2) :
    (copyPieces from' to' pieces).Asks (Request.Within readable writable) fun _ => True := by
  induction pieces with
  | nil => exact asks_pure trivial
  | cons piece pieces ih =>
    obtain ⟨⟨hreads, hwrites⟩, hpieces⟩ := List.forall_mem_cons.1 h
    refine (read_asks hsource hreads).bind fun bytes hlength => ?_
    exact (write_asks hdestination (hlength ▸ hwrites)).bind fun _ _ => ih hpieces

theorem copyEach_asks {source destination : Extent} (hsource : source ∈ readable)
    (hdestination : destination ∈ writable) {from' to' length : Nat}
    (hreads : source.Covers from' (span g length))
    (hwrites : destination.Covers to' (span g length))
    {pages : List (Nat × Nat)} (hpages : ∀ page ∈ pages, page.1 + g.eraseSize ≤ span g length) :
    (copyEach g from' to' length pages).Asks (Request.Within readable writable)
      fun _ => True := by
  rw [Extent.Covers] at hreads hwrites
  induction pages with
  | nil => exact asks_pure trivial
  | cons page pages ih =>
    obtain ⟨hpage, hrest⟩ := List.forall_mem_cons.1 hpages
    refine (erase_asks hdestination (by omega) (by omega) (by omega)).bind fun _ _ => ?_
    refine (copyPieces_asks hsource hdestination ?_).bind fun _ _ => ih hrest
    intro piece hpiece
    obtain ⟨-, hlt, hsize⟩ := mem_cut hpiece
    simp only [Extent.Covers]
    omega

/-- A page that begins before the image ends is one of the pages that hold it. -/
theorem page_within_span (hpage : 0 < g.eraseSize) {length : Nat} {page : Nat × Nat}
    (hmem : page ∈ cut g.eraseSize 0 length) : page.1 + g.eraseSize ≤ span g length := by
  obtain ⟨⟨k, hk⟩, hlt, -⟩ := mem_cut hmem
  obtain ⟨pages, hspan⟩ := dvd_span g length
  have hle := le_span hpage length
  have hmore : k < pages := by
    refine Nat.lt_of_mul_lt_mul_left (a := g.eraseSize) ?_
    rw [Nat.mul_comm g.eraseSize k, ← hspan]
    omega
  rw [hk, hspan, Nat.zero_add, Nat.mul_comm k, ← Nat.mul_succ]
  exact Nat.mul_le_mul_left _ hmore

/-- A copy of pages reads its source and erases and programs its destination. -/
theorem copy_asks (hpage : 0 < g.eraseSize) {source destination : Extent}
    (hsource : source ∈ readable) (hdestination : destination ∈ writable)
    {from' to' length : Nat} (hreads : source.Covers from' (span g length))
    (hwrites : destination.Covers to' (span g length)) :
    (copy g from' to' length).Asks (Request.Within readable writable) fun _ => True :=
  copyEach_asks hsource hdestination hreads hwrites fun _ hmem => page_within_span hpage hmem

end Pages

end Reflash
