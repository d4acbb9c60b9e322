/-
  Reflash.Proofs.Flash.Copying

  A copy of pages from end to end, byte by byte. One that succeeds has made the
  destination's pages equal to the source's. One that fails was stopped in some page: the
  pages in front of it are copied, and it either was not touched or is copied in whole
  blocks up to some place and erased from there on. Nothing else changes either way. The
  loops over pages and over blocks end after a number of requests that the sizes tell,
  whether or not a page is a whole number of blocks.
-/
import Reflash.Proofs.Flash.Footprint

namespace Reflash

/-! ## How many requests a task makes -/

namespace FlashTask

variable {α β : Type} {g : Geometry} {cost cost' : Nat}

/-- On every part the task makes at most `cost` requests, and exactly so many if it succeeds. -/
def Costs (g : Geometry) (task : FlashTask α) (cost : Nat) : Prop :=
  ∀ device : Device g, (task.run.trace device).length ≤ cost
    ∧ ∀ a, (task.run.run device).1 = .ok a → (task.run.trace device).length = cost

theorem costs_pure (a : α) : (pure a : FlashTask α).Costs g 0 :=
  fun _ => ⟨Nat.le_refl 0, fun _ _ => rfl⟩

theorem Costs.bind {task : FlashTask α} {next : α → FlashTask β} (h : task.Costs g cost)
    (hnext : ∀ a, (next a).Costs g cost') : (task >>= next).Costs g (cost + cost') := by
  intro device
  have htrace := Procedure.trace_bind task.run (ExceptT.bindCont next) device
  have hrun := Procedure.run_bind task.run (ExceptT.bindCont next) device
  obtain ⟨hle, hok⟩ := h device
  show (Procedure.trace (task.run >>= ExceptT.bindCont next) device).length ≤ _
    ∧ ∀ a, (Procedure.run (task.run >>= ExceptT.bindCont next) device).1 = .ok a →
      (Procedure.trace (task.run >>= ExceptT.bindCont next) device).length = _
  rw [htrace, hrun, List.length_append]
  -- A task that stops makes no request of what was to come behind it.
  cases hresult : (task.run.run device).1 with
  | error fault => exact ⟨Nat.le_trans hle (Nat.le_add_right _ _), nofun⟩
  | ok a =>
    obtain ⟨hle', hok'⟩ := hnext a (task.run.run device).2
    rw [hok a hresult]
    exact ⟨Nat.add_le_add_left hle' _, fun b hb => congrArg _ (hok' b hb)⟩

theorem read_costs (offset length : Nat) : (read offset length).Costs g 1 :=
  fun _ => ⟨Nat.le_refl 1, fun _ _ => rfl⟩

theorem write_costs (offset : Nat) (bytes : Bytes) : (write offset bytes).Costs g 1 :=
  fun _ => ⟨Nat.le_refl 1, fun _ _ => rfl⟩

theorem erase_costs (first last : Nat) : (erase first last).Costs g 1 :=
  fun _ => ⟨Nat.le_refl 1, fun _ _ => rfl⟩

end FlashTask

namespace Pages

open FlashTask (costs_pure read_costs write_costs erase_costs)

variable {g : Geometry}

/-- A range has as many pieces as are needed to hold it, the last of them not always whole. -/
theorem length_cut {size : Nat} (hsize : 0 < size) (first last : Nat) :
    (cut size first last).length = (last - first + size - 1) / size := by
  -- By induction on what is left of the range, which a piece shortens by at most `size`.
  induction hn : last - first using Nat.strongRecOn generalizing first with
  | ind n ih =>
    by_cases hlt : first < last
    · rw [cut_of_lt hlt hsize, List.length_cons, ih _ (by omega) (first + size) rfl]
      by_cases hmore : size ≤ n
      · rw [show last - (first + size) + size - 1 = n - 1 from by omega,
          show n + size - 1 = n - 1 + size from by omega, Nat.add_div_right _ hsize]
      · rw [show last - (first + size) + size - 1 = size - 1 from by omega,
          show n + size - 1 = n - 1 + size from by omega, Nat.add_div_right _ hsize,
          Nat.div_eq_of_lt (by omega), Nat.div_eq_of_lt (by omega)]
    · rw [cut_of_le (by omega), List.length_nil, Nat.div_eq_of_lt (by omega)]

/-- Each piece is read and written. -/
theorem copyPieces_costs (source destination : Nat) (pieces : List (Nat × Nat)) :
    (copyPieces source destination pieces).Costs g (2 * pieces.length) := by
  induction pieces with
  | nil => exact costs_pure ()
  | cons piece pieces ih =>
    have hcosts := (read_costs (g := g) (source + piece.1) piece.2).bind fun bytes =>
      (write_costs (destination + piece.1) bytes).bind fun _ => ih
    rwa [← Nat.add_assoc, ← Nat.add_comm (2 * pieces.length)] at hcosts

/-- Blocks of a page, the last of them not always whole. -/
def blocksPerPage (g : Geometry) : Nat :=
  (g.eraseSize + blockSize - 1) / blockSize

/-- Each page is erased, and each of its blocks is read and written. -/
theorem copyEach_costs (source destination length : Nat) {pages : List (Nat × Nat)}
    (hpages : ∀ page ∈ pages, page.1 + g.eraseSize ≤ span g length) :
    (copyEach g source destination length pages).Costs g
      (pages.length * (1 + 2 * blocksPerPage g)) := by
  induction pages with
  | nil =>
    rw [List.length_nil, Nat.zero_mul]
    exact costs_pure ()
  | cons page pages ih =>
    obtain ⟨hpage, hrest⟩ := List.forall_mem_cons.1 hpages
    have hpieces := copyPieces_costs (g := g) source destination
      (cut blockSize page.1 (min (page.1 + g.eraseSize) (span g length)))
    rw [length_cut (by decide), Nat.min_eq_left hpage, Nat.add_sub_cancel_left] at hpieces
    rw [List.length_cons, Nat.succ_mul, Nat.add_comm, Nat.add_assoc]
    refine (erase_costs _ _).bind fun _ => ?_
    rw [Nat.min_eq_left hpage]
    exact hpieces.bind fun _ => ih hrest

/-- A copy of pages is over after so many requests, or fewer if it is stopped. -/
theorem copy_costs (hpage : 0 < g.eraseSize) (source destination length : Nat) :
    (copy g source destination length).Costs g
      (span g length / g.eraseSize * (1 + 2 * blocksPerPage g)) := by
  have hcosts := copyEach_costs source destination length
    (fun page hmem => page_within_span hpage hmem)
  rwa [length_cut hpage, Nat.sub_zero, ← Nat.mul_div_cancel
    ((length + g.eraseSize - 1) / g.eraseSize) hpage] at hcosts

/-! ## Byte by byte -/

variable {before after : Flash g} {source destination n erased total : Nat}

theorem Copied.getElem?_copied (h : Copied before source destination n erased after)
    (hsource : source + n ≤ g.capacity) (hfit : destination + (n + erased) ≤ g.capacity) {i : Nat}
    (hi : i < n) : after.memory[destination + i]? = before.memory[source + i]? := by
  have hlength : (before.slice source n).length = n := Flash.length_slice hsource
  rw [h.memory_eq, Flash.getElem?_patch_inside _ (by simp [hlength]; omega) (by omega)
    (by simp [hlength]; omega), Nat.add_sub_cancel_left, List.getElem?_append_left (by omega),
    Flash.getElem?_slice, if_pos hi]

theorem Copied.getElem?_erased (h : Copied before source destination n erased after)
    (hsource : source + n ≤ g.capacity) (hfit : destination + (n + erased) ≤ g.capacity) {i : Nat}
    (hlow : n ≤ i) (hhigh : i < n + erased) :
    after.memory[destination + i]? = some Flash.erasedByte := by
  have hlength : (before.slice source n).length = n := Flash.length_slice hsource
  rw [h.memory_eq, Flash.getElem?_patch_inside _ (by simp [hlength]; omega) (by omega)
    (by simp [hlength]; omega), Nat.add_sub_cancel_left, List.getElem?_append_right (by omega),
    List.getElem?_replicate, if_pos (by omega)]

theorem Copied.getElem?_outside (h : Copied before source destination n erased after)
    (hsource : source + n ≤ g.capacity) {place : Nat}
    (hout : place < destination ∨ destination + (n + erased) ≤ place) :
    after.memory[place]? = before.memory[place]? := by
  have hlength : (before.slice source n).length = n := Flash.length_slice hsource
  rw [h.memory_eq, Flash.getElem?_patch_outside _ (by simpa [hlength] using hout)]

/-- The pages of the destination hold what those of the source did, and nothing else has changed. -/
structure Completed (before : Flash g) (source destination total : Nat) (after : Flash g) :
    Prop where
  copied : ∀ i < total, after.memory[destination + i]? = before.memory[source + i]?
  others : ∀ place, place < destination ∨ destination + total ≤ place →
    after.memory[place]? = before.memory[place]?

/-- A copy was stopped in a page: those in front of it are copied, it is untouched or copied up to
the end of some block and erased behind that, and nothing else has changed. -/
structure StoppedIn (before : Flash g) (source destination total page : Nat) (after : Flash g) :
    Prop where
  within : (page + 1) * g.eraseSize ≤ total
  copied : ∀ i < page * g.eraseSize, after.memory[destination + i]? = before.memory[source + i]?
  reached :
    (∀ i < g.eraseSize, after.memory[destination + page * g.eraseSize + i]?
        = before.memory[destination + page * g.eraseSize + i]?)
      ∨ ∃ blocks, blocks * blockSize < g.eraseSize
        ∧ ∀ i < g.eraseSize, after.memory[destination + page * g.eraseSize + i]?
          = if i < blocks * blockSize then before.memory[source + page * g.eraseSize + i]?
            else some Flash.erasedByte
  others : ∀ place, place < destination ∨ destination + (page + 1) * g.eraseSize ≤ place →
    after.memory[place]? = before.memory[place]?

theorem Copied.completed (h : Copied before source destination n 0 after)
    (hsource : source + n ≤ g.capacity) (hfit : destination + n ≤ g.capacity) :
    Completed before source destination n after where
  copied := fun _ hi => h.getElem?_copied hsource hfit hi
  others := fun _ hout => h.getElem?_outside hsource hout

theorem Halted.stoppedIn (h : Halted before source destination total after)
    (hsource : source + total ≤ g.capacity) (hfit : destination + total ≤ g.capacity) :
    ∃ page, StoppedIn before source destination total page after := by
  obtain ⟨page, blocks, erased, hwithin, hpage, hcopied⟩ := h
  have hend : (page + 1) * g.eraseSize = page * g.eraseSize + g.eraseSize := Nat.succ_mul _ _
  -- Either the page was not touched or it was erased, and then copied block by block.
  refine ⟨page, hwithin, ?_, ?_, ?_⟩
  all_goals obtain ⟨rfl, rfl⟩ | ⟨hpos, hpage⟩ := hpage
  · exact fun i hi => hcopied.getElem?_copied (by omega) (by omega) (by omega)
  · exact fun i hi => hcopied.getElem?_copied (by omega) (by omega) (by omega)
  · exact .inl fun i hi => hcopied.getElem?_outside (by omega) (by omega)
  · refine .inr ⟨blocks, by omega, fun i hi => ?_⟩
    split
    next hlow =>
      have hbyte := hcopied.getElem?_copied (by omega) (by omega)
        (show page * g.eraseSize + i < page * g.eraseSize + blocks * blockSize by omega)
      rwa [← Nat.add_assoc, ← Nat.add_assoc] at hbyte
    next hhigh =>
      have hbyte := hcopied.getElem?_erased (by omega) (by omega)
        (show page * g.eraseSize + blocks * blockSize ≤ page * g.eraseSize + i by omega)
        (by omega)
      rwa [← Nat.add_assoc] at hbyte
  · exact fun place hout => hcopied.getElem?_outside (by omega) (by omega)
  · exact fun place hout => hcopied.getElem?_outside (by omega) (by omega)

/-! ## From end to end -/

/-- A copy between pages that lie in the part and apart from each other either succeeds, and then
the destination's pages hold what the source's did; or it reports a request that was planned to
fail, and then it was stopped in one of the pages. Otherwise nothing changes. All that is read lies
in the source's pages and all that is written or erased in the destination's; there are no more
requests than one for each page and two for each block, and no fewer unless it is stopped. -/
theorem copies_or_stops (source destination length : Nat) (hpage : 0 < g.eraseSize)
    (hwhole : g.writeSize ∣ g.eraseSize) (hblock : g.writeSize ∣ blockSize)
    (hstart : g.eraseSize ∣ destination) (hsource : source + span g length ≤ g.capacity)
    (hfit : destination + span g length ≤ g.capacity)
    (hapart : source + span g length ≤ destination ∨ destination + span g length ≤ source)
    (device : Device g) (hglitch : device.flash.glitch = none) :
    let task := (copy g source destination length).run
    let outcome := task.run device
    (outcome.1 = .ok () ∧ Completed device.flash source destination (span g length) outcome.2.flash
          ∧ (task.trace device).length = span g length / g.eraseSize * (1 + 2 * blocksPerPage g)
        ∨ ∃ fault page, outcome.1 = .error fault ∧ FlashTask.Failing device.flash fault
          ∧ StoppedIn device.flash source destination (span g length) page outcome.2.flash)
      ∧ (task.trace device).length ≤ span g length / g.eraseSize * (1 + 2 * blocksPerPage g)
      ∧ ∀ step ∈ task.trace device, step.1.Within [⟨source, source + span g length⟩]
        [⟨destination, destination + span g length⟩] := by
  intro task outcome
  have hcopy := (ensures_copy source destination length hpage hwhole hblock hstart hfit hsource
    hapart hglitch device.jumper).2.2
  have hcosts := copy_costs hpage source destination length device
  have hasks := copy_asks hpage (List.mem_singleton_self ⟨source, source + span g length⟩)
    (List.mem_singleton_self ⟨destination, destination + span g length⟩)
    ⟨Nat.le_refl _, Nat.le_refl _⟩ ⟨Nat.le_refl _, Nat.le_refl _⟩
  refine ⟨?_, hcosts.1, (hasks.ensures device).1⟩
  cases hresult : outcome.1 with
  | ok _ =>
    replace hcopy : Copied device.flash source destination (span g length) 0 outcome.2.flash := by
      rwa [show (task.run device).1 = .ok () from hresult] at hcopy
    exact .inl ⟨rfl, hcopy.completed hsource hfit, hcosts.2 () hresult⟩
  | error fault =>
    rw [show (task.run device).1 = .error fault from hresult] at hcopy
    obtain ⟨page, hstopped⟩ := hcopy.2.stoppedIn hsource hfit
    exact .inr ⟨fault, page, rfl, hcopy.1, hstopped⟩

/-- A small part whose pages are less than a block. -/
def uneven : Geometry where
  writeSize := 4
  eraseSize := 12
  capacity := 48

/-- An image that ends in the second page, and a write that is going to fail. -/
def unevenDevice : Device uneven where
  flash := { Flash.preload {} 0 (List.replicate 20 0x5A) with fault := some ⟨.write, 1⟩ }

/-- The second page has been erased when its only block fails to be written. -/
theorem copies_or_stops_uneven :
    let outcome := (copy uneven 0 24 20).run.run unevenDevice
    (∃ fault page, outcome.1 = .error fault
        ∧ StoppedIn unevenDevice.flash 0 24 24 page outcome.2.flash)
      ∧ outcome.2.flash.slice 24 24
        = List.replicate 12 0x5A ++ List.replicate 12 Flash.erasedByte := by
  intro outcome
  obtain ⟨hends, -, -⟩ := copies_or_stops (g := uneven) 0 24 20 (by decide) (by decide) (by decide)
    (by decide) (by decide) (by decide) (by decide) unevenDevice rfl
  have hfails : outcome.1.toOption = none := by decide +kernel
  refine ⟨?_, by decide +kernel⟩
  obtain ⟨hok, -⟩ | ⟨fault, page, herror, -, hstopped⟩ := hends
  · rw [hok] at hfails
    cases hfails
  · exact ⟨fault, page, herror, hstopped⟩

end Pages

end Reflash
