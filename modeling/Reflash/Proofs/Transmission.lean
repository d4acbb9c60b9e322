/-
  Reflash.Proofs.Transmission

  Reading and writing on one link. Whatever no single read changes is not changed by
  reading a frame off the link, and whatever no single write changes is not changed by
  sending. A link that takes the bytes there is room for, in pieces of any length,
  takes a datagram whole, frame by frame.
-/
import Reflash.Proofs.Link

namespace Reflash

namespace Transport

variable {τ : Type} [Transport τ] {P : τ → Prop}

/-! ## What single reads and writes keep -/

theorem seek_keeps (hread : ∀ n link, P link → P (read n link).2) (skipped : Nat) {link : τ}
    (h : P link) : P (seek skipped link).2.2 := by
  fun_induction seek skipped link with
  | case1 skipped link link' heq => simpa only [heq] using hread 1 link h
  | case2 skipped link bytes link' heq => simpa only [heq] using hread 1 link h
  | case3 skipped link byte bytes link' heq hmark ih =>
    exact ih (by simpa only [heq] using hread 1 link h)
  | case4 skipped link error link' heq => simpa only [heq] using hread 1 link h

theorem fill_keeps (hread : ∀ n link, P link → P (read n link).2) (frame : Bytes) {link : τ}
    (h : P link) : P (fill frame link).2 := by
  fun_induction fill frame link with
  | case1 frame link _ link' heq =>
    simpa only [heq] using hread (Packet.frameSize - frame.length) link h
  | case2 frame link _ byte bytes link' heq ih =>
    exact ih (by simpa only [heq] using hread (Packet.frameSize - frame.length) link h)
  | case3 frame link _ link' heq =>
    simpa only [heq] using hread (Packet.frameSize - frame.length) link h
  | case4 frame link _ error link' _ heq =>
    simpa only [heq] using hread (Packet.frameSize - frame.length) link h
  | case5 => exact h

theorem readFrame_keeps (hread : ∀ n link, P link → P (read n link).2) {link : τ}
    (h : P link) : P (readFrame link).2.2 := by
  have hseek := seek_keeps hread 0 h
  rw [readFrame]
  split
  next heq => rwa [heq] at hseek
  next heq =>
    rw [heq] at hseek
    exact fill_keeps hread _ hseek

theorem writeAll_keeps (hwrite : ∀ bytes link, P link → P (write bytes link).2)
    (bytes : Bytes) {link : τ} (h : P link) : P (writeAll bytes link).2 := by
  fun_induction writeAll bytes link with
  | case1 => exact h
  | case2 bytes link _ error link' heq => simpa only [heq] using hwrite bytes link h
  | case3 bytes link _ link' heq => simpa only [heq] using hwrite bytes link h
  | case4 bytes link _ n link' heq ih => exact ih (by simpa only [heq] using hwrite bytes link h)

theorem writeEach_keeps (hwrite : ∀ bytes link, P link → P (write bytes link).2)
    (blocks : List Bytes) {link : τ} (h : P link) : P (writeEach blocks link).2 := by
  induction blocks generalizing link with
  | nil => exact h
  | cons block blocks ih =>
    have hblock := writeAll_keeps hwrite block h
    rw [writeEach]
    split
    next heq => rwa [heq] at hblock
    next heq =>
      rw [heq] at hblock
      exact ih hblock

/-! ## Links that take what there is room for -/

/-- What was written can be told from the link. As long as there is room, a write takes some of the
bytes. Reading does not get in the way. -/
structure Sends (sent : τ → Bytes) (room : τ → Nat) : Prop where
  read_sent : ∀ n (link : τ), sent (read n link).2 = sent link
  read_room : ∀ n (link : τ), room link ≤ room (read n link).2
  write_some : ∀ bytes (link : τ), bytes ≠ [] → bytes.length ≤ room link →
    ∃ k, 0 < k ∧ k ≤ bytes.length ∧ (write bytes link).1 = .ok k
      ∧ sent (write bytes link).2 = sent link ++ bytes.take k
      ∧ room link ≤ room (write bytes link).2 + k
  flush_ok : ∀ link : τ, (flush link).1 = .ok ()
  flush_sent : ∀ link : τ, sent (flush link).2 = sent link
  flush_room : ∀ link : τ, room link ≤ room (flush link).2

variable {sent : τ → Bytes} {room : τ → Nat}

/-- Reading a frame is not sending, and takes up no room. -/
theorem Sends.readFrame (h : Sends sent room) (link : τ) :
    sent (Transport.readFrame link).2.2 = sent link
      ∧ room link ≤ room (Transport.readFrame link).2.2 := by
  refine readFrame_keeps (P := fun link' => sent link' = sent link ∧ room link ≤ room link') ?_
    ⟨rfl, Nat.le_refl _⟩
  rintro n link' ⟨hsent, hroom⟩
  exact ⟨(h.read_sent n link').trans hsent, Nat.le_trans hroom (h.read_room n link')⟩

/-- Bytes for which there is room are written to the last, in however many writes. -/
theorem Sends.writeAll (h : Sends sent room) {bytes : Bytes} {link : τ}
    (hroom : bytes.length ≤ room link) :
    ∃ link', Transport.writeAll bytes link = (.ok (), link') ∧ sent link' = sent link ++ bytes
      ∧ room link ≤ room link' + bytes.length := by
  -- By induction on what is left to write: each write takes at least one byte.
  induction hn : bytes.length using Nat.strongRecOn generalizing bytes link with
  | ind n ih =>
    rw [Transport.writeAll]
    by_cases hnil : bytes.length = 0
    · rw [dif_pos hnil]
      refine ⟨link, rfl, ?_, Nat.le_add_right _ _⟩
      rw [List.length_eq_zero_iff.1 hnil, List.append_nil]
    · rw [dif_neg hnil]
      obtain ⟨k, hpos, hle, hanswer, hsent, hleft⟩ :=
        h.write_some bytes link (fun heq => hnil (heq ▸ rfl)) hroom
      obtain ⟨j, rfl⟩ := Nat.exists_eq_succ_of_ne_zero (Nat.ne_of_gt hpos)
      have hrest : (bytes.drop (j + 1)).length = bytes.length - (j + 1) := List.length_drop
      obtain ⟨last, hwrite, hsent', hleft'⟩ := ih (bytes.drop (j + 1)).length (by omega)
        (show _ ≤ room (write bytes link).2 by omega) rfl
      refine ⟨last, ?_, ?_, by omega⟩
      · rw [show write bytes link = (.ok (j + 1), (write bytes link).2) from Prod.ext hanswer rfl]
        exact hwrite
      · rw [hsent', hsent, List.append_assoc, List.take_append_drop]

theorem Sends.writeEach (h : Sends sent room) {blocks : List Bytes} {link : τ}
    (hroom : blocks.flatten.length ≤ room link) :
    ∃ link', Transport.writeEach blocks link = (.ok (), link')
      ∧ sent link' = sent link ++ blocks.flatten
      ∧ room link ≤ room link' + blocks.flatten.length := by
  induction blocks generalizing link with
  | nil => exact ⟨link, rfl, (List.append_nil _).symm, Nat.le_add_right _ _⟩
  | cons block blocks ih =>
    rw [List.flatten_cons, List.length_append] at hroom ⊢
    obtain ⟨mid, hblock, hsent, hleft⟩ := h.writeAll (show block.length ≤ room link by omega)
    obtain ⟨last, hblocks, hsent', hleft'⟩ := ih (show _ ≤ room mid by omega)
    refine ⟨last, ?_, ?_, by omega⟩
    · rw [Transport.writeEach, hblock]
      exact hblocks
    · rw [hsent', hsent, List.append_assoc]

/-- Memory takes what it has room for. -/
theorem loopback_sends :
    Sends Loopback.outgoing fun link => link.capacity - link.outgoing.length where
  read_sent n link := by
    show (Loopback.read n link).2.outgoing = link.outgoing
    rw [Loopback.read]
    split
    · rfl
    · split <;> rfl
  read_room n link := by
    show _ ≤ (Loopback.read n link).2.capacity - (Loopback.read n link).2.outgoing.length
    rw [Loopback.read]
    split
    · exact Nat.le_refl _
    · split <;> exact Nat.le_refl _
  write_some bytes link hne hroom := by
    have hpos : bytes.length ≠ 0 := fun hzero => hne (List.length_eq_zero_iff.1 hzero)
    have hwrite : write bytes link
        = (.ok bytes.length, { link with outgoing := link.outgoing ++ bytes }) :=
      if_neg (by omega)
    refine ⟨bytes.length, Nat.pos_of_ne_zero hpos, Nat.le_refl _, ?_, ?_, ?_⟩
    · rw [hwrite]
    · rw [hwrite, List.take_length]
    · rw [hwrite]
      show _ ≤ link.capacity - (link.outgoing ++ bytes).length + bytes.length
      rw [List.length_append]
      omega
  flush_ok _ := rfl
  flush_sent _ := rfl
  flush_room _ := Nat.le_refl _

/-! ## Links that keep the two ways apart -/

/-- A link that keeps the order of bytes, and on which what waits to be read is not touched by
writing. -/
structure Duplex (pending : τ → Bytes) : Prop extends Faithful pending where
  write_pending : ∀ bytes (link : τ), pending (write bytes link).2 = pending link
  flush_pending : ∀ link : τ, pending (flush link).2 = pending link

theorem loopback_duplex : Duplex Loopback.incoming where
  toFaithful := loopback_faithful
  write_pending bytes link := by
    show (Loopback.write bytes link).2.incoming = link.incoming
    rw [Loopback.write]
    split <;> rfl
  flush_pending _ := rfl

end Transport

/-! ## Endpoints -/

namespace Endpoint

variable {τ : Type} [Transport τ] {P : τ → Prop} {sent : τ → Bytes} {room : τ → Nat}

/-- Sending concerns the link alone. -/
theorem send_eq (endpoint : Endpoint τ) (datagram : Datagram) :
    (endpoint.send datagram).2 = { endpoint with link := (endpoint.send datagram).2.link } := by
  rw [send]
  split
  · rfl
  · split <;> rfl

theorem assembly_send (endpoint : Endpoint τ) (datagram : Datagram) :
    (endpoint.send datagram).2.assembly = endpoint.assembly := by
  rw [send_eq]

theorem send_keeps (hwrite : ∀ bytes link, P link → P (Transport.write bytes link).2)
    (hflush : ∀ link, P link → P (Transport.flush link).2) (datagram : Datagram)
    {endpoint : Endpoint τ} (h : P endpoint.link) : P (endpoint.send datagram).2.link := by
  have hframes := Transport.writeEach_keeps hwrite datagram.frames h
  rw [send]
  split
  next heq => rwa [heq] at hframes
  next link heq =>
    rw [heq] at hframes
    have hlast := hflush link hframes
    split
    next heq' => rwa [heq'] at hlast
    next heq' => rwa [heq'] at hlast

/-- A datagram for which there is room is sent whole. -/
theorem send_sends (h : Transport.Sends sent room) {endpoint : Endpoint τ} {datagram : Datagram}
    (hroom : datagram.frames.flatten.length ≤ room endpoint.link) :
    sent (endpoint.send datagram).2.link = sent endpoint.link ++ datagram.frames.flatten
      ∧ room endpoint.link
        ≤ room (endpoint.send datagram).2.link + datagram.frames.flatten.length := by
  obtain ⟨link, hwrite, hsent, hleft⟩ := h.writeEach hroom
  have hflush : Transport.flush link = (.ok (), (Transport.flush link).2) :=
    Prod.ext (h.flush_ok link) rfl
  have hroom' := h.flush_room link
  have hsend : endpoint.send datagram
      = (.ok (), { endpoint with link := (Transport.flush link).2 }) := by
    rw [send, hwrite]
    simp only
    rw [hflush]
  rw [hsend]
  exact ⟨(h.flush_sent link).trans hsent, by show _ ≤ room (Transport.flush link).2 + _; omega⟩

end Endpoint

end Reflash
