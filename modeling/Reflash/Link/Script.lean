/-
  Reflash.Link.Script

  A link that follows a script: what each read gives, how much each write takes
  and how each flush ends. Once a script is used up, reads fail as agreed, writes
  take everything and flushes succeed.
-/
import Reflash.Link.Transport

namespace Reflash

/-- What one read of a script gives. -/
inductive ScriptedRead (ε : Type) where
  /-- No bytes and no error. -/
  | nothing
  | fails (error : ε)
  /-- Bytes, over as many reads as it takes. -/
  | gives (bytes : Bytes)

namespace ScriptedRead

/-- The bytes that it gives. -/
def bytes {ε : Type} : ScriptedRead ε → Bytes
  | gives bytes => bytes
  | _ => []

end ScriptedRead

/-- A scripted link whose operations fail with errors of type `ε`. -/
structure Script (ε : Type) where
  /-- The error of reads beyond the script. -/
  exhausted : ε
  reads : List (ScriptedRead ε) := []
  writes : List (Except ε Nat) := []
  flushes : List (Except ε Unit) := []
  /-- What is left of the bytes given last. -/
  rest : Bytes := []
  /-- Everything that writes have taken. -/
  sent : Bytes := []

namespace Script

variable {ε : Type}

def read (n : Nat) (script : Script ε) : Except ε Bytes × Script ε :=
  if !script.rest.isEmpty then
    (.ok (script.rest.take n), { script with rest := script.rest.drop n })
  else match script.reads with
    | [] => (.error script.exhausted, script)
    | .nothing :: reads => (.ok [], { script with reads })
    | .fails error :: reads => (.error error, { script with reads })
    | .gives bytes :: reads =>
      (.ok (bytes.take n), { script with reads, rest := bytes.drop n })

def write (bytes : Bytes) (script : Script ε) : Except ε Nat × Script ε :=
  match script.writes with
  | [] => (.ok bytes.length, { script with sent := script.sent ++ bytes })
  | .ok n :: writes =>
    (.ok (min n bytes.length), { script with writes, sent := script.sent ++ bytes.take n })
  | .error error :: writes => (.error error, { script with writes })

def flush (script : Script ε) : Except ε Unit × Script ε :=
  match script.flushes with
  | [] => (.ok (), script)
  | outcome :: flushes => (outcome, { script with flushes })

/-- Bytes that reads can still give. -/
def supply (script : Script ε) : Nat :=
  script.rest.length + (script.reads.flatMap ScriptedRead.bytes).length

theorem supply_read (n : Nat) (script : Script ε) :
    (script.read n).2.supply + bytesGiven (script.read n).1 ≤ script.supply := by
  unfold read
  split
  · simp [supply, bytesGiven]; omega
  · split <;> rename_i hreads
    all_goals simp [supply, bytesGiven, hreads, ScriptedRead.bytes]
    omega

instance : Transport (Script LinkError) where
  read := read
  write := write
  flush := flush
  supply := supply
  supply_read := supply_read

end Script

end Reflash
