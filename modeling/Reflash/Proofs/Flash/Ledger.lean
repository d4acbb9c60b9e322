/-
  Reflash.Proofs.Flash.Ledger

  A part over any run of requests, with faults planned anywhere in between. The ledger of
  a run lists what was asked and how it was answered, and it tells all that the part
  holds: each byte is the one last written there since it was last erased, and the pages
  counted are those that were erased. A request that fails has no effect. Whether it
  fails is settled by its form, by the bits it would have to raise, and by the last plan:
  exactly the request that the plan was made for is hit, counted from the plan among the
  requests of its kind that have the right form.
-/
import Mathlib.Algebra.GroupWithZero.Nat
import Mathlib.Order.Interval.Finset.Nat
import Reflash.Proofs.Flash.Footprint

namespace Reflash

namespace Flash

variable {g : Geometry} {flash : Flash g}

/-! ## Commands -/

/-- What is done with a part on trial. -/
inductive Command where
  | read (offset length : Nat)
  | write (offset : Nat) (bytes : Bytes)
  | erase (first last : Nat)
  /-- Of the requests of a kind, `skip` go through and the one after is to fail. -/
  | failAfter (operation : FlashOperation) (skip : Nat)
  deriving DecidableEq

/-- Carries a command out. A read gives bytes, all else gives none. -/
def perform (flash : Flash g) : Command → Except DriverError Bytes × Flash g
  | .read offset length => flash.read offset length
  | .write offset bytes =>
    ((flash.write offset bytes).1.map fun () => [], (flash.write offset bytes).2)
  | .erase first last =>
    ((flash.erase first last).1.map fun () => [], (flash.erase first last).2)
  | .failAfter operation skip => (.ok [], flash.failAfter operation skip)

/-- The part after a run of commands. -/
def performAll (flash : Flash g) (commands : List Command) : Flash g :=
  commands.foldl (fun flash command => (flash.perform command).2) flash

namespace Command

/-- The kind of request that a command is, if it is one. -/
def operation? : Command → Option FlashOperation
  | read _ _ => some .read
  | write _ _ => some .write
  | erase _ _ => some .erase
  | failAfter _ _ => none

/-- A request lies inside the part and is made of whole writes or whole pages. -/
def Admissible (g : Geometry) : Command → Prop
  | read offset length => offset + length ≤ g.capacity
  | write offset bytes => offset + bytes.length ≤ g.capacity
      ∧ g.writeSize ∣ offset ∧ g.writeSize ∣ bytes.length
  | erase first last => first ≤ last ∧ last ≤ g.capacity
      ∧ g.eraseSize ∣ first ∧ g.eraseSize ∣ last
  | failAfter _ _ => True

instance (g : Geometry) : DecidablePred (Admissible g)
  | read _ _ => inferInstanceAs (Decidable (_ ≤ _))
  | write _ _ => inferInstanceAs (Decidable (_ ∧ _))
  | erase _ _ => inferInstanceAs (Decidable (_ ∧ _))
  | failAfter _ _ => inferInstanceAs (Decidable True)

/-- A request that a plan for this kind counts. -/
def Counts (g : Geometry) (operation : FlashOperation) (command : Command) : Prop :=
  command.operation? = some operation ∧ command.Admissible g

instance (g : Geometry) (operation : FlashOperation) : DecidablePred (Counts g operation) :=
  fun _ => inferInstanceAs (Decidable (_ ∧ _))

/-- A write would have to raise a bit. -/
def Raises (flash : Flash g) : Command → Prop
  | write offset bytes => ∃ (i : Nat) (old new : UInt8), flash.memory[offset + i]? = some old
      ∧ bytes[i]? = some new ∧ new &&& ~~~old ≠ 0
  | _ => False

/-- The pages that lie in the range of an erasure. -/
def pages (g : Geometry) : Command → Finset Nat
  | erase first last => (Finset.range (g.capacity / g.eraseSize)).filter fun page =>
      first ≤ page * g.eraseSize ∧ (page + 1) * g.eraseSize ≤ last
  | _ => ∅

/-- The effect of a command: a read gives what is held; a write puts exactly its bytes in, and it
only lowers bits; an erasure sets exactly its range to the erased value. -/
def Done (before : Flash g) (given : Bytes) (after : Flash g) : Command → Prop
  | read offset length => given.length = length
      ∧ (∀ i < length, given[i]? = before.memory[offset + i]?) ∧ after.memory = before.memory
  | write offset bytes => given = []
      ∧ (∀ i < bytes.length, after.memory[offset + i]? = bytes[i]?)
      ∧ (∀ place, place < offset ∨ offset + bytes.length ≤ place →
        after.memory[place]? = before.memory[place]?)
      ∧ ∀ (place : Nat) (old new : UInt8), before.memory[place]? = some old →
        after.memory[place]? = some new → new &&& ~~~old = 0
  | erase first last => given = []
      ∧ (∀ place, first ≤ place → place < last → after.memory[place]? = some erasedByte)
      ∧ ∀ place, place < first ∨ last ≤ place → after.memory[place]? = before.memory[place]?
  | failAfter _ _ => given = [] ∧ after.memory = before.memory

end Command

/-- How a part answers a command that a planned fault hits or not. -/
inductive Answers (struck : Prop) (before : Flash g) (command : Command) (after : Flash g) :
    Except DriverError Bytes → Prop where
  | done (given : Bytes) (admissible : command.Admissible g) (spared : ¬struck)
      (lowers : ¬command.Raises before) (effect : command.Done before given after)
      (count : after.erasures = before.erasures + (command.pages g).card) :
      Answers struck before command after (.ok given)
  | failed (admissible : command.Admissible g) (reason : struck ∨ command.Raises before)
      (memory : after.memory = before.memory) (count : after.erasures = before.erasures) :
      Answers struck before command after (.error .other)
  | refused (error : DriverError) (form : ¬command.Admissible g) (kind : error ≠ .other)
      (nothing : after = before) : Answers struck before command after (.error error)

/-! ## One command -/

theorem checkSlice_cases (capacity align offset length : Nat) :
    checkSlice capacity align offset length = .ok ()
        ∧ (offset + length ≤ capacity ∧ align ∣ offset ∧ align ∣ length)
      ∨ ∃ error, checkSlice capacity align offset length = .error error ∧ error ≠ .other
        ∧ ¬(offset + length ≤ capacity ∧ align ∣ offset ∧ align ∣ length) := by
  simp only [Nat.dvd_iff_mod_eq_zero]
  rw [checkSlice]
  split
  next h => exact .inr ⟨_, rfl, by rintro ⟨⟩, by omega⟩
  next hfit =>
    split
    next h => exact .inr ⟨_, rfl, by rintro ⟨⟩, by omega⟩
    next h => exact .inl ⟨rfl, by omega, by omega, by omega⟩

theorem checkRange_cases (capacity align first last : Nat) :
    checkRange capacity align first last = .ok ()
        ∧ (first ≤ last ∧ last ≤ capacity ∧ align ∣ first ∧ align ∣ last)
      ∨ ∃ error, checkRange capacity align first last = .error error ∧ error ≠ .other
        ∧ ¬(first ≤ last ∧ last ≤ capacity ∧ align ∣ first ∧ align ∣ last) := by
  simp only [Nat.dvd_iff_mod_eq_zero]
  rw [checkRange]
  split
  next h => exact .inr ⟨_, rfl, by rintro ⟨⟩, by omega⟩
  next hfit =>
    split
    next h => exact .inr ⟨_, rfl, by rintro ⟨⟩, by omega⟩
    next h => exact .inl ⟨rfl, by omega, by omega, by omega, by omega⟩

/-- A request is hit by a fault that is planned for the next of its kind. Nothing but the plan
changes. -/
theorem takeFault_eq (flash : Flash g) (operation : FlashOperation) :
    ∃ fault, flash.takeFault operation
      = (decide (flash.fault = some ⟨operation, 0⟩), { flash with fault }) := by
  -- The plan is for another kind of request, for this request, or for a later one.
  obtain ⟨memory, erasures, fault, glitch⟩ := flash
  cases fault with
  | none => exact ⟨none, rfl⟩
  | some planned =>
    obtain ⟨kind, skip⟩ := planned
    rw [takeFault]
    dsimp only
    by_cases hother : kind ≠ operation
    · rw [if_pos hother, decide_eq_false (by rintro ⟨⟩; exact hother rfl)]
      exact ⟨_, rfl⟩
    · obtain rfl : kind = operation := Decidable.of_not_not hother
      rw [if_neg hother]
      cases skip with
      | zero => exact ⟨none, by rw [decide_eq_true rfl]⟩
      | succ skip => exact ⟨some ⟨kind, skip⟩, by rw [decide_eq_false (by rintro ⟨⟩)]⟩

/-- Whether a bit would have to be raised is seen byte by byte. -/
theorem raises_iff {offset : Nat} {bytes : Bytes} :
    raises (flash.slice offset bytes.length) bytes = true
      ↔ (Command.write offset bytes).Raises flash := by
  rw [raises, List.any_eq_true]
  constructor
  · rintro ⟨⟨old, new⟩, hmem, hraises⟩
    obtain ⟨i, hi⟩ := List.mem_iff_getElem?.1 hmem
    obtain ⟨hold, hnew⟩ := List.getElem?_zip_eq_some.1 hi
    rw [getElem?_slice] at hold
    split at hold
    · exact ⟨i, old, new, hold, hnew, bne_iff_ne.1 hraises⟩
    · cases hold
  · rintro ⟨i, old, new, hold, hnew, hraises⟩
    refine ⟨(old, new), List.mem_iff_getElem?.2 ⟨i, ?_⟩, bne_iff_ne.2 hraises⟩
    refine List.getElem?_zip_eq_some.2 ⟨?_, hnew⟩
    rw [getElem?_slice, if_pos (List.getElem?_eq_some_iff.1 hnew).1]
    exact hold

/-- An erasure of whole pages covers as many as fit into its range. -/
theorem card_pages {first last : Nat} (h : (Command.erase first last).Admissible g) :
    ((Command.erase first last).pages g).card = (last - first) / g.eraseSize := by
  obtain ⟨horder, hfit, ⟨a, rfl⟩, ⟨b, rfl⟩⟩ := h
  by_cases hpos : 0 < g.eraseSize
  · -- They are those from `a` up to `b`.
    have hpages : (Command.erase (g.eraseSize * a) (g.eraseSize * b)).pages g
        = Finset.Ico a b := by
      ext page
      have hlast : b ≤ g.capacity / g.eraseSize := by
        rwa [Nat.le_div_iff_mul_le hpos, Nat.mul_comm]
      simp only [Command.pages, Finset.mem_filter, Finset.mem_range, Finset.mem_Ico,
        Nat.mul_comm g.eraseSize, Nat.mul_le_mul_right_iff hpos]
      omega
    rw [hpages, Nat.card_Ico, ← Nat.mul_sub, Nat.mul_div_cancel_left _ hpos]
  · obtain hzero : g.eraseSize = 0 := Nat.eq_zero_of_not_pos hpos
    simp [Command.pages, hzero]

/-- Whether the next request of this kind is going to fail. -/
def Awaits (flash : Flash g) (command : Command) : Prop :=
  ∃ operation, command.operation? = some operation ∧ flash.fault = some ⟨operation, 0⟩

theorem awaits_iff {command : Command} {operation : FlashOperation}
    (h : command.operation? = some operation) :
    flash.Awaits command ↔ flash.fault = some ⟨operation, 0⟩ := by
  constructor
  · rintro ⟨other, hother, hfault⟩
    rw [h] at hother
    cases hother
    exact hfault
  · exact fun hfault => ⟨operation, h, hfault⟩

theorem read_answers (offset length : Nat) :
    Answers (flash.Awaits (.read offset length)) flash (.read offset length)
      (flash.read offset length).2 (flash.read offset length).1 := by
  obtain ⟨fault, htake⟩ := flash.takeFault_eq .read
  have hawaits : flash.Awaits (.read offset length) ↔ flash.fault = some ⟨.read, 0⟩ :=
    awaits_iff rfl
  rw [read]
  obtain ⟨hcheck, hform, -⟩ | ⟨error, hcheck, hkind, hform⟩ :=
    checkSlice_cases g.capacity 1 offset length
  · rw [hcheck, htake]
    by_cases hplanned : flash.fault = some ⟨.read, 0⟩
    · simp only [hplanned, decide_true, if_true]
      exact .failed hform (.inl (hawaits.2 hplanned)) rfl rfl
    · simp only [hplanned, decide_false, Bool.false_eq_true, if_false]
      refine .done _ hform (fun h => hplanned (hawaits.1 h)) id ⟨length_slice hform, ?_, rfl⟩ rfl
      intro i hi
      rw [getElem?_slice, if_pos hi]
  · rw [hcheck]
    exact .refused error (fun h => hform ⟨h, Nat.one_dvd _, Nat.one_dvd _⟩) hkind rfl

/-- Programmed bytes replace what was held, and where they differ from it bits are lowered. -/
theorem done_write {before after : Flash g} {offset : Nat} {bytes : Bytes}
    (hfit : offset + bytes.length ≤ g.capacity)
    (hraises : ¬(Command.write offset bytes).Raises before)
    (hmemory : after.memory = patch before.memory offset bytes) :
    (Command.write offset bytes).Done before [] after := by
  have houtside : ∀ place, place < offset ∨ offset + bytes.length ≤ place →
      after.memory[place]? = before.memory[place]? := fun place hout => by
    rw [hmemory, getElem?_patch_outside _ hout]
  have hinside : ∀ i < bytes.length, after.memory[offset + i]? = bytes[i]? := fun i hi => by
    rw [hmemory, getElem?_patch_inside _ hfit (Nat.le_add_right _ _) (by omega),
      Nat.add_sub_cancel_left]
  refine ⟨rfl, hinside, houtside, fun place old new hold hnew => ?_⟩
  -- A byte outside is as it was; one inside is new, and raises nothing.
  by_cases hout : place < offset ∨ offset + bytes.length ≤ place
  · rw [houtside place hout, hold] at hnew
    cases hnew
    exact UInt8.and_not_self
  · obtain ⟨i, rfl⟩ : ∃ i, place = offset + i := ⟨place - offset, by omega⟩
    rw [hinside i (by omega)] at hnew
    exact Decidable.of_not_not fun hne => hraises ⟨i, old, new, hold, hnew, hne⟩

theorem write_answers (hglitch : flash.glitch = none) (offset : Nat) (bytes : Bytes) :
    Answers (flash.Awaits (.write offset bytes)) flash (.write offset bytes)
      (flash.write offset bytes).2 ((flash.write offset bytes).1.map fun () => []) := by
  obtain ⟨fault, htake⟩ := flash.takeFault_eq .write
  have hawaits : flash.Awaits (.write offset bytes) ↔ flash.fault = some ⟨.write, 0⟩ :=
    awaits_iff rfl
  have htaken : flash.takeGlitch bytes = (bytes, flash) := by
    rw [takeGlitch, hglitch]
  rw [write, htaken]
  dsimp only
  obtain ⟨hcheck, hform⟩ | ⟨error, hcheck, hkind, hform⟩ :=
    checkSlice_cases g.capacity g.writeSize offset bytes.length
  · rw [hcheck, htake]
    -- What is held does not depend on the plan.
    have hsame : slice { flash with fault } offset bytes.length
        = flash.slice offset bytes.length := rfl
    simp only [hsame]
    by_cases hplanned : flash.fault = some ⟨.write, 0⟩
    · simp only [hplanned, decide_true, Bool.true_or, if_true]
      exact .failed hform (.inl (hawaits.2 hplanned)) rfl rfl
    by_cases hraises : raises (flash.slice offset bytes.length) bytes = true
    · simp only [hraises, Bool.or_true, if_true]
      exact .failed hform (.inr (raises_iff.1 hraises)) rfl rfl
    · simp only [hplanned, hraises, decide_false, Bool.or_self, Bool.false_eq_true, if_false]
      have hlowers : ¬(Command.write offset bytes).Raises flash :=
        fun h => hraises (raises_iff.2 h)
      exact .done _ hform (fun h => hplanned (hawaits.1 h)) hlowers
        (done_write hform.1 hlowers rfl) rfl
  · rw [hcheck]
    exact .refused error hform hkind rfl

theorem done_erase {before after : Flash g} {first last : Nat}
    (hform : (Command.erase first last).Admissible g)
    (hmemory : after.memory = blank before.memory first (last - first)) :
    (Command.erase first last).Done before [] after := by
  obtain ⟨horder, hfit, -, -⟩ := hform
  rw [blank_eq_patch] at hmemory
  have hlength : (List.replicate (last - first) erasedByte).length = last - first :=
    List.length_replicate
  refine ⟨rfl, fun place hlow hhigh => ?_, fun place hout => ?_⟩
  · rw [hmemory, getElem?_patch_inside _ (by omega) hlow (by omega),
      List.getElem?_replicate_of_lt (by omega)]
  · rw [hmemory, getElem?_patch_outside _ (by omega)]

theorem erase_answers (first last : Nat) :
    Answers (flash.Awaits (.erase first last)) flash (.erase first last)
      (flash.erase first last).2 ((flash.erase first last).1.map fun () => []) := by
  obtain ⟨fault, htake⟩ := flash.takeFault_eq .erase
  have hawaits : flash.Awaits (.erase first last) ↔ flash.fault = some ⟨.erase, 0⟩ :=
    awaits_iff rfl
  rw [erase]
  obtain ⟨hcheck, hform⟩ | ⟨error, hcheck, hkind, hform⟩ :=
    checkRange_cases g.capacity g.eraseSize first last
  · rw [hcheck, htake]
    by_cases hplanned : flash.fault = some ⟨.erase, 0⟩
    · simp only [hplanned, decide_true, if_true]
      exact .failed hform (.inl (hawaits.2 hplanned)) rfl rfl
    · simp only [hplanned, decide_false, Bool.false_eq_true, if_false]
      refine .done _ hform (fun h => hplanned (hawaits.1 h)) id (done_erase hform rfl) ?_
      rw [card_pages hform]
  · rw [hcheck]
    exact .refused error hform hkind rfl

theorem perform_answers (hglitch : flash.glitch = none) (command : Command) :
    Answers (flash.Awaits command) flash command (flash.perform command).2
      (flash.perform command).1 := by
  cases command with
  | read offset length => exact read_answers offset length
  | write offset bytes => exact write_answers hglitch offset bytes
  | erase first last => exact erase_answers first last
  | failAfter operation skip =>
    exact .done [] trivial (fun ⟨_, hnone, _⟩ => nomatch hnone) id ⟨rfl, rfl⟩ rfl

theorem perform_glitch (hglitch : flash.glitch = none) (command : Command) :
    (flash.perform command).2.glitch = none := by
  cases command with
  | read offset length => exact read_glitch hglitch offset length
  | write offset bytes => exact write_glitch hglitch offset bytes
  | erase first last => exact erase_glitch hglitch first last
  | failAfter operation skip => exact hglitch

/-- A request of the right form takes its share of the plan, hit or not. -/
theorem perform_takes {command : Command} {operation : FlashOperation}
    (hglitch : flash.glitch = none) (h : command.Counts g operation) :
    (flash.perform command).2.fault = (flash.takeFault operation).2.fault := by
  obtain ⟨hoperation, hform⟩ := h
  obtain ⟨fault, htake⟩ := flash.takeFault_eq operation
  cases command with
  | read offset length =>
    cases hoperation
    obtain ⟨hcheck, -⟩ | ⟨_, -, -, hno⟩ := checkSlice_cases g.capacity 1 offset length
    · rw [perform, read, hcheck, htake]
      dsimp only
      split <;> rfl
    · exact absurd ⟨hform, Nat.one_dvd _, Nat.one_dvd _⟩ hno
  | write offset bytes =>
    cases hoperation
    obtain ⟨hcheck, -⟩ | ⟨_, -, -, hno⟩ :=
      checkSlice_cases g.capacity g.writeSize offset bytes.length
    · rw [perform, write, takeGlitch, hglitch]
      dsimp only
      rw [hcheck, htake]
      dsimp only
      split <;> rfl
    · exact absurd hform hno
  | erase first last =>
    cases hoperation
    obtain ⟨hcheck, -⟩ | ⟨_, -, -, hno⟩ := checkRange_cases g.capacity g.eraseSize first last
    · rw [perform, erase, hcheck, htake]
      dsimp only
      split <;> rfl
    · exact absurd hform hno
  | failAfter => cases hoperation

/-- A request of the wrong form is without any effect. -/
theorem perform_of_not_admissible {command : Command} (hglitch : flash.glitch = none)
    (h : ¬command.Admissible g) : (flash.perform command).2 = flash := by
  generalize hanswer : (flash.perform command).1 = answer
  have hanswers := perform_answers hglitch command
  rw [hanswer] at hanswers
  cases hanswers with
  | done _ hform => exact absurd hform h
  | failed hform => exact absurd hform h
  | refused _ _ _ hnothing => exact hnothing

/-! ## What the ledger tells -/

/-- A command and how it was answered. -/
structure Entry where
  command : Command
  answer : Except DriverError Bytes

namespace Entry

/-- What is left of a byte at a place: what was written over it, if that went well. -/
def mark (place : Nat) (byte : UInt8) : Entry → UInt8
  | ⟨.write offset bytes, .ok _⟩ =>
    if offset ≤ place then bytes.getD (place - offset) byte else byte
  | ⟨.erase first last, .ok _⟩ => if first ≤ place ∧ place < last then erasedByte else byte
  | _ => byte

/-- The pages that were erased, if that went well. -/
def erased (g : Geometry) : Entry → Nat
  | ⟨command, .ok _⟩ => (command.pages g).card
  | _ => 0

end Entry

/-- The ledger of a run of commands. -/
def entries (flash : Flash g) : List Command → List Entry
  | [] => []
  | command :: commands =>
    ⟨command, (flash.perform command).1⟩ :: (flash.perform command).2.entries commands

/-- The byte last written at a place since it was last erased. -/
def lastWritten (place : Nat) (entries : List Entry) : UInt8 :=
  entries.foldl (Entry.mark place) erasedByte

/-- The ledger accounts for every byte and for every page counted. -/
structure Accounted (flash : Flash g) (past : List Entry) : Prop where
  memory_eq : ∀ place < g.capacity, flash.memory[place]? = some (lastWritten place past)
  erasures_eq : flash.erasures = (past.map (Entry.erased g)).sum
  glitch_eq : flash.glitch = none

theorem new_accounted : ({} : Flash g).Accounted [] where
  memory_eq place hplace := by
    rw [Vector.getElem?_eq_getElem hplace, Vector.getElem_replicate]
    rfl
  erasures_eq := rfl
  glitch_eq := rfl

/-- The effect of a command is what its entry marks. -/
theorem done_mark {before after : Flash g} {command : Command} {given : Bytes}
    (h : command.Done before given after) {place : Nat} {byte : UInt8}
    (hbyte : before.memory[place]? = some byte) :
    after.memory[place]? = some (Entry.mark place byte ⟨command, .ok given⟩) := by
  cases command with
  | read offset length => rw [h.2.2, hbyte]; rfl
  | write offset bytes =>
    obtain ⟨-, hinside, houtside, -⟩ := h
    rw [Entry.mark]
    by_cases hout : place < offset ∨ offset + bytes.length ≤ place
    · rw [houtside place hout, hbyte]
      split
      · rw [List.getD_eq_getElem?_getD, List.getElem?_eq_none (by omega)]
        rfl
      · rfl
    · obtain ⟨i, rfl⟩ : ∃ i, place = offset + i := ⟨place - offset, by omega⟩
      rw [hinside i (by omega), if_pos (Nat.le_add_right _ _), Nat.add_sub_cancel_left,
        List.getD_eq_getElem?_getD, List.getElem?_eq_getElem (by omega)]
      rfl
  | erase first last =>
    obtain ⟨-, hinside, houtside⟩ := h
    rw [Entry.mark]
    split
    next hin => rw [hinside place hin.1 hin.2]
    next hout => rw [houtside place (by omega), hbyte]
  | failAfter => rw [h.2, hbyte]; rfl

theorem Accounted.step {past : List Entry} (h : flash.Accounted past) (command : Command) :
    (flash.perform command).2.Accounted (past ++ [⟨command, (flash.perform command).1⟩]) := by
  have hanswers := perform_answers h.glitch_eq command
  have hglitch := perform_glitch h.glitch_eq command
  generalize (flash.perform command).2 = after at hanswers hglitch ⊢
  generalize (flash.perform command).1 = answer at hanswers ⊢
  -- A failure marks nothing, so all that was accounted for still is.
  have hfailure {error : DriverError} (hmemory : after.memory = flash.memory)
      (hcount : after.erasures = flash.erasures) :
      after.Accounted (past ++ [⟨command, .error error⟩]) := by
    refine ⟨fun place hplace => ?_, ?_, hglitch⟩
    · rw [hmemory, h.memory_eq place hplace, lastWritten, lastWritten, List.foldl_append]
      cases command <;> rfl
    · rw [hcount, h.erasures_eq, List.map_append, List.sum_append]
      rfl
  cases hanswers with
  | done given _ _ _ heffect hcount =>
    refine ⟨fun place hplace => ?_, ?_, hglitch⟩
    · rw [lastWritten, List.foldl_append]
      exact done_mark heffect (h.memory_eq place hplace)
    · rw [hcount, h.erasures_eq, List.map_append, List.sum_append]
      rfl
  | failed _ _ hmemory hcount => exact hfailure hmemory hcount
  | refused error _ _ hnothing =>
    exact hfailure (congrArg memory hnothing) (congrArg erasures hnothing)

theorem Accounted.run {past : List Entry} (h : flash.Accounted past) (commands : List Command) :
    (flash.performAll commands).Accounted (past ++ flash.entries commands) := by
  -- By induction on the commands; what is accounted for grows by an entry each time.
  induction commands generalizing flash past with
  | nil => rwa [entries, List.append_nil]
  | cons command commands ih =>
    have := ih (h.step command)
    rwa [List.append_assoc] at this

/-! ## What is left of a plan -/

/-- A plan after `n` of the requests that it counts. -/
def remaining (operation : FlashOperation) (skip n : Nat) : Option PlannedFault :=
  if n ≤ skip then some ⟨operation, skip - n⟩ else none

variable {operation : FlashOperation} {skip n : Nat}

theorem remaining_eq_some {operation' : FlashOperation} :
    remaining operation skip n = some ⟨operation', 0⟩ ↔ operation = operation' ∧ n = skip := by
  rw [remaining]
  split
  · rw [Option.some_inj, PlannedFault.mk.injEq]
    exact and_congr_right fun _ => by omega
  · refine ⟨nofun, ?_⟩
    rintro ⟨-, rfl⟩
    omega

theorem takeFault_remaining (h : flash.fault = remaining operation skip n) :
    (flash.takeFault operation).2.fault = remaining operation skip (n + 1) := by
  rw [takeFault, h, remaining, remaining]
  by_cases hover : skip < n
  · rw [if_neg (by omega), if_neg (by omega)]
    dsimp only
    rw [h, remaining, if_neg (by omega)]
  · rw [if_pos (by omega)]
    dsimp only
    rw [if_neg (not_not_intro rfl)]
    cases hleft : skip - n with
    | zero => rw [if_neg (by omega)]
    | succ left =>
      rw [if_pos (by omega), show skip - (n + 1) = left by omega]

theorem takeFault_remaining_of_ne {other : FlashOperation} (hne : operation ≠ other)
    (h : flash.fault = remaining operation skip n) :
    (flash.takeFault other).2.fault = remaining operation skip n := by
  rw [takeFault, ← h]
  split
  · rfl
  next planned hplanned =>
    rw [h, remaining] at hplanned
    split at hplanned
    · cases hplanned
      rw [if_pos hne]
    · cases hplanned

theorem perform_remaining (hglitch : flash.glitch = none)
    (h : flash.fault = remaining operation skip n) {command : Command}
    (hrequest : command.operation? ≠ none) :
    (flash.perform command).2.fault
      = remaining operation skip (n + if command.Counts g operation then 1 else 0) := by
  split
  next hcounts => rw [perform_takes hglitch hcounts, takeFault_remaining h]
  next hcounts =>
    by_cases hform : command.Admissible g
    · obtain ⟨other, hother⟩ := Option.ne_none_iff_exists'.1 hrequest
      have hne : operation ≠ other := by
        rintro rfl
        exact hcounts ⟨hother, hform⟩
      rw [perform_takes hglitch ⟨hother, hform⟩, takeFault_remaining_of_ne hne h]
      rfl
    · rw [perform_of_not_admissible hglitch hform]
      exact h

/-- Until the next plan is made, a plan counts the requests that are for it. -/
theorem performAll_remaining (hglitch : flash.glitch = none)
    (h : flash.fault = remaining operation skip n) {commands : List Command}
    (hrequests : ∀ command ∈ commands, command.operation? ≠ none) :
    (flash.performAll commands).fault
      = remaining operation skip (n + commands.countP (·.Counts g operation)) := by
  -- By induction on the commands, with the number counted so far in `n`.
  induction commands generalizing flash n with
  | nil => exact h
  | cons command commands ih =>
    have := ih (perform_glitch hglitch command)
      (perform_remaining hglitch h (hrequests command List.mem_cons_self))
      fun other hmem => hrequests other (List.mem_cons_of_mem _ hmem)
    rw [List.countP_cons, Nat.add_comm (List.countP _ _), ← Nat.add_assoc]
    simp only [decide_eq_true_eq]
    exact this

/-- A history makes no plan, or there is one that it makes last. -/
theorem last_plan (history : List Command) :
    (∀ command ∈ history, command.operation? ≠ none)
      ∨ ∃ before operation skip since, history = before ++ .failAfter operation skip :: since
        ∧ ∀ command ∈ since, command.operation? ≠ none := by
  -- By induction from the front: a plan further on is made later.
  induction history with
  | nil => exact .inl nofun
  | cons command history ih =>
    obtain hplain | ⟨before, operation, skip, since, rfl, hsince⟩ := ih
    · cases command with
      | failAfter operation skip => exact .inr ⟨[], operation, skip, history, rfl, hplain⟩
      | _ => exact .inl (List.forall_mem_cons.2 ⟨nofun, hplain⟩)
    · exact .inr ⟨command :: before, operation, skip, since, rfl, hsince⟩

/-- After a history, a command is the one that the last plan was made for. -/
def Struck (g : Geometry) (history : List Command) (command : Command) : Prop :=
  ∃ before operation skip since, history = before ++ .failAfter operation skip :: since
    ∧ (∀ other ∈ since, other.operation? ≠ none)
    ∧ command.Counts g operation ∧ since.countP (·.Counts g operation) = skip

/-- The plan made last is what counts from then on. -/
theorem fault_since (before : List Command) (operation : FlashOperation) (skip : Nat)
    {since : List Command} (hsince : ∀ other ∈ since, other.operation? ≠ none) :
    (({} : Flash g).performAll (before ++ .failAfter operation skip :: since)).fault
      = remaining operation skip (since.countP (·.Counts g operation)) := by
  have hglitch : ((performAll ({} : Flash g) before).failAfter operation skip).glitch = none :=
    (new_accounted.run before).glitch_eq
  rw [performAll, List.foldl_append, List.foldl_cons]
  have : (performAll ((performAll {} before).failAfter operation skip) since).fault
      = remaining operation skip (0 + since.countP (·.Counts g operation)) :=
    performAll_remaining hglitch rfl hsince
  rwa [Nat.zero_add] at this

theorem awaits_iff_struck (history : List Command) {command : Command}
    (hform : command.Admissible g) :
    (({} : Flash g).performAll history).Awaits command ↔ Struck g history command := by
  constructor
  · rintro ⟨operation, hoperation, hfault⟩
    obtain hplain | ⟨before, operation', skip, since, rfl, hsince⟩ := last_plan history
    · -- No plan is as good as one that has hit.
      have hnone : (({} : Flash g).performAll history).fault
          = remaining operation 0 (1 + history.countP (·.Counts g operation)) :=
        performAll_remaining rfl rfl hplain
      rw [hnone, remaining_eq_some] at hfault
      omega
    · rw [fault_since before operation' skip hsince, remaining_eq_some] at hfault
      obtain ⟨rfl, hcount⟩ := hfault
      exact ⟨before, operation', skip, since, rfl, hsince, ⟨hoperation, hform⟩, hcount⟩
  · rintro ⟨before, operation, skip, since, rfl, hsince, hcounts, hcount⟩
    refine ⟨operation, hcounts.1, ?_⟩
    rw [fault_since before operation skip hsince, remaining_eq_some]
    exact ⟨rfl, hcount⟩

theorem Answers.congr {struck struck' : Prop} {before after : Flash g} {command : Command}
    {answer : Except DriverError Bytes} (h : Answers struck before command after answer)
    (hiff : command.Admissible g → (struck ↔ struck')) :
    Answers struck' before command after answer := by
  cases h with
  | done given hform hspared hlowers heffect hcount =>
    exact .done given hform (mt (hiff hform).2 hspared) hlowers heffect hcount
  | failed hform hreason hmemory hcount =>
    exact .failed hform (hreason.imp_left (hiff hform).1) hmemory hcount
  | refused error hform hkind hnothing => exact .refused error hform hkind hnothing

/-- After any history of a new part, the ledger tells every byte and the number of pages erased,
and the next command is answered as its form, the bits held and the last plan make it. -/
theorem keeps_ledger (g : Geometry) (history : List Command) (command : Command) :
    let flash := ({} : Flash g).performAll history
    let ledger := ({} : Flash g).entries history
    (∀ place < g.capacity, flash.memory[place]? = some (lastWritten place ledger))
      ∧ flash.erasures = (ledger.map (Entry.erased g)).sum
      ∧ Answers (Struck g history command) flash command (flash.perform command).2
        (flash.perform command).1 := by
  have haccounted := new_accounted.run (g := g) history
  exact ⟨haccounted.memory_eq, haccounted.erasures_eq,
    (perform_answers haccounted.glitch_eq command).congr (awaits_iff_struck history)⟩

-- The second erasure is hit; the misaligned one before it does not count.
example : (({} : Flash ⟨4, 8, 16⟩).entries [.failAfter .erase 1, .erase 0 8, .write 0 [1, 2, 3, 4],
    .erase 4 8, .erase 0 8, .erase 8 16]).map (fun entry => entry.answer.toOption)
      = [some [], some [], some [], none, none, some []] := by
  decide

end Flash

end Reflash
