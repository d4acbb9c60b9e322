/-
  Reflash.Proofs.Loader.Port

  A port that follows a script, as the loader uses it. What reads are still to give is a
  list of answers, of which each read takes the next. Writing a buffer goes on until the
  port has taken all of it or has failed, and has nothing to do with what is read.
-/
import Reflash.Loader.Program
import Reflash.Proofs.Reassembly

namespace Reflash

namespace Script

variable {ε : Type} {size : Nat}

/-! ## Reading -/

/-- What reads of up to `size` bytes give until the script is used up. -/
def left (size : Nat) (port : Script ε) : List (Except ε Bytes) :=
  (port.rest.pieces size).map .ok ++ port.reads.flatMap (ScriptedRead.answers size)

theorem left_of_rest_nil {port : Script ε} (h : port.rest = []) :
    port.left size = port.reads.flatMap (ScriptedRead.answers size) := by
  rw [left, h, Bytes.pieces_nil]
  rfl

theorem left_of_rest {port : Script ε} (hsize : 0 < size) (h : port.rest ≠ []) :
    port.left size
      = .ok (port.rest.take size) :: left size { port with rest := port.rest.drop size } := by
  rw [left, Bytes.pieces_of_ne_nil hsize h]
  rfl

/-- With nothing left of the bytes given last, a read goes by the script. -/
theorem read_of_rest_nil {port : Script ε} (h : port.rest = []) :
    port.read size = match port.reads with
      | [] => (.error port.exhausted, port)
      | .nothing :: reads => (.ok [], { port with reads })
      | .fails error :: reads => (.error error, { port with reads })
      | .gives bytes :: reads =>
        (.ok (bytes.take size), { port with reads, rest := bytes.drop size }) := by
  rw [read, h]
  rfl

/-- A script gives at least one answer for each of its reads. -/
theorem answers_ne_nil (hsize : 0 < size) (first : ScriptedRead ε) : first.answers size ≠ [] := by
  cases first with
  | nothing => nofun
  | fails error => nofun
  | gives bytes =>
    rw [ScriptedRead.answers]
    split
    · nofun
    next hne =>
      rw [Bytes.pieces_of_ne_nil hsize (by simpa using hne)]
      nofun

theorem read_of_left_nil {port : Script ε} (hsize : 0 < size) (h : port.left size = []) :
    port.read size = (.error port.exhausted, port) := by
  by_cases hrest : port.rest = []
  · rw [left_of_rest_nil hrest] at h
    rw [read_of_rest_nil hrest]
    cases hreads : port.reads with
    | nil => rfl
    | cons first reads =>
      rw [hreads, List.flatMap_cons, List.append_eq_nil_iff] at h
      exact absurd h.1 (answers_ne_nil hsize first)
  · rw [left_of_rest hsize hrest] at h
    cases h

/-- A read takes the next answer off the script. -/
theorem read_of_left_cons {port : Script ε} {answer : Except ε Bytes}
    {answers : List (Except ε Bytes)} (hsize : 0 < size) (h : port.left size = answer :: answers) :
    (port.read size).1 = answer ∧ (port.read size).2.left size = answers := by
  by_cases hrest : port.rest = []
  · rw [left_of_rest_nil hrest] at h
    rw [read_of_rest_nil hrest]
    cases hreads : port.reads with
    | nil =>
      rw [hreads] at h
      cases h
    | cons first reads =>
      rw [hreads, List.flatMap_cons] at h
      cases first with
      | nothing =>
        cases h
        exact ⟨rfl, left_of_rest_nil hrest⟩
      | fails error =>
        cases h
        exact ⟨rfl, left_of_rest_nil hrest⟩
      | gives bytes =>
        -- Bytes are one answer or more; the first is what fits, the others are what is left.
        rw [ScriptedRead.answers] at h
        split at h
        next hempty =>
          obtain rfl := List.isEmpty_iff.1 hempty
          cases h
          exact ⟨congrArg Except.ok List.take_nil, left_of_rest_nil List.drop_nil⟩
        next hne =>
          rw [Bytes.pieces_of_ne_nil hsize (by simpa using hne)] at h
          cases h
          exact ⟨rfl, rfl⟩
  · rw [left_of_rest hsize hrest] at h
    cases h
    rw [read, if_pos (by simpa using hrest)]
    exact ⟨rfl, rfl⟩

/-- A read takes the next answer off the script, if there is one. -/
theorem left_read (port : Script ε) (hsize : 0 < size) :
    (port.read size).2.left size = (port.left size).tail := by
  cases hleft : port.left size with
  | nil =>
    rw [read_of_left_nil hsize hleft]
    exact hleft
  | cons answer answers => exact (read_of_left_cons hsize hleft).2

/-- A read changes what is left to read, and nothing else. -/
theorem read_keeps (port : Script ε) (size : Nat) :
    ∃ reads rest, (port.read size).2 = { port with reads, rest } := by
  rw [read]
  split
  · exact ⟨_, _, rfl⟩
  · split <;> exact ⟨_, _, rfl⟩

/-- A read gives the next of the answers that are to come, those beyond the script included. -/
theorem read_of_answers {port : Script ε} {answer : Except ε Bytes}
    {answers : List (Except ε Bytes)} {beyond : Nat} (hsize : 0 < size)
    (h : answer :: answers = port.left size ++ List.replicate beyond (.error port.exhausted)) :
    (port.read size).1 = answer ∧ ∃ beyond, answers
      = (port.read size).2.left size
        ++ List.replicate beyond (.error (port.read size).2.exhausted) := by
  cases hleft : port.left size with
  | nil =>
    rw [read_of_left_nil hsize hleft, hleft]
    rw [hleft] at h
    cases beyond with
    | zero => cases h
    | succ beyond =>
      cases h
      exact ⟨rfl, beyond, rfl⟩
  | cons first others =>
    obtain ⟨hfirst, hothers⟩ := read_of_left_cons hsize hleft
    obtain ⟨reads, rest, hport⟩ := port.read_keeps size
    rw [hothers, hport]
    rw [hleft] at h
    cases h
    exact ⟨hfirst, beyond, rfl⟩

theorem length_read_le {port : Script ε} {bytes : Bytes} (h : (port.read size).1 = .ok bytes) :
    bytes.length ≤ size := by
  rw [read] at h
  split at h
  · cases h
    exact List.length_take_le ..
  · split at h <;> cases h
    · exact Nat.zero_le _
    · exact List.length_take_le ..

/-! ## Writing and flushing -/

theorem writeAll_eq (bytes : Bytes) (port : Script Failure) :
    port.writeAll bytes = if bytes.length = 0 then (.ok (), port)
      else match port.writes with
        | [] => (.ok (), (port.write bytes).2)
        | .error failure :: writes =>
          if failure.kind? = some .interrupted then writeAll bytes { port with writes }
          else (.error failure, { port with writes })
        | .ok n :: _ =>
          if min n bytes.length = 0 then
            (.error (.fixed .writeZero "failed to write whole buffer"), (port.write bytes).2)
          else writeAll (bytes.drop (min n bytes.length)) (port.write bytes).2 := by
  rw [writeAll]
  split
  · rfl
  · split <;> rename_i hwrites <;> rw [hwrites]

/-- What is written is taken piece by piece, and if all goes well it is taken whole. -/
theorem writeAll_takes (bytes : Bytes) (port : Script Failure) :
    ∃ writes taken, (port.writeAll bytes).2 = { port with writes, sent := port.sent ++ taken }
      ∧ ((port.writeAll bytes).1 = .ok () → taken = bytes) := by
  -- By induction on the writes: an interrupted one takes nothing, and what one has taken in part is
  -- followed by the rest.
  fun_induction writeAll bytes port with
  | case1 bytes port hempty =>
    exact ⟨port.writes, [], by rw [List.append_nil],
      fun _ => (List.length_eq_zero_iff.1 hempty).symm⟩
  | case2 bytes port hmore hwrites =>
    exact ⟨port.writes, bytes, by rw [write, hwrites], fun _ => rfl⟩
  | case3 bytes port hmore failure writes hwrites hagain ih =>
    exact ih
  | case4 bytes port hmore failure writes hwrites hfails =>
    exact ⟨writes, [], by rw [List.append_nil], nofun⟩
  | case5 bytes port hmore n writes hwrites hnone =>
    exact ⟨writes, bytes.take n, by rw [write, hwrites], nofun⟩
  | case6 bytes port hmore n writes hwrites hsome ih =>
    obtain ⟨writes', taken, heq, hwhole⟩ := ih
    rw [write, hwrites] at heq hwhole ⊢
    refine ⟨writes', bytes.take n ++ taken, by rw [heq, List.append_assoc], fun hok => ?_⟩
    rw [hwhole hok, List.take_eq_take_min, List.take_append_drop]

/-- What is left to read has no part in writing. -/
theorem writeAll_aside (bytes : Bytes) (port : Script Failure)
    (reads : List (ScriptedRead Failure)) (rest : Bytes) :
    writeAll bytes { port with reads, rest }
      = ((port.writeAll bytes).1, { (port.writeAll bytes).2 with reads, rest }) := by
  fun_induction writeAll bytes port with
  | case1 bytes port hempty => rw [writeAll_eq, if_pos hempty]
  | case2 bytes port hmore hwrites =>
    rw [writeAll_eq, if_neg hmore]
    simp only [hwrites, write]
  | case3 bytes port hmore failure writes hwrites hagain ih =>
    rw [writeAll_eq, if_neg hmore]
    simp only [hwrites, if_pos hagain]
    exact ih
  | case4 bytes port hmore failure writes hwrites hfails =>
    rw [writeAll_eq, if_neg hmore]
    simp only [hwrites, if_neg hfails]
  | case5 bytes port hmore n writes hwrites hnone =>
    rw [writeAll_eq, if_neg hmore]
    simp only [hwrites, if_pos hnone, write]
  | case6 bytes port hmore n writes hwrites hsome ih =>
    rw [writeAll_eq, if_neg hmore]
    simp only [hwrites, if_neg hsome, write] at ih ⊢
    exact ih

theorem flush_aside (port : Script Failure) (reads : List (ScriptedRead Failure)) (rest : Bytes) :
    flush { port with reads, rest } = (port.flush.1, { port.flush.2 with reads, rest }) := by
  obtain ⟨exhausted, reads', writes, flushes, rest', sent⟩ := port
  cases flushes <;> rfl

theorem flush_keeps (port : Script Failure) :
    ∃ flushes, port.flush.2 = { port with flushes } := by
  rw [flush]
  split <;> exact ⟨_, rfl⟩

end Script

end Reflash
