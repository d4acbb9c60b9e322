/-
  Reflash.Link.Breakable

  A link whose next read or next write can be made to fail.
-/
import Reflash.Link.Transport

namespace Reflash

structure Breakable (τ : Type) where
  link : τ
  nextRead : Option LinkError := none
  nextWrite : Option LinkError := none

namespace Breakable

variable {τ : Type} [Transport τ]

def read (n : Nat) (broken : Breakable τ) : Except LinkError Bytes × Breakable τ :=
  match broken.nextRead with
  | some error => (.error error, { broken with nextRead := none })
  | none =>
    let (outcome, link) := Transport.read n broken.link
    (outcome, { broken with link })

def write (bytes : Bytes) (broken : Breakable τ) : Except LinkError Nat × Breakable τ :=
  match broken.nextWrite with
  | some error => (.error error, { broken with nextWrite := none })
  | none =>
    let (outcome, link) := Transport.write bytes broken.link
    (outcome, { broken with link })

def flush (broken : Breakable τ) : Except LinkError Unit × Breakable τ :=
  let (outcome, link) := Transport.flush broken.link
  (outcome, { broken with link })

theorem supply_read (n : Nat) (broken : Breakable τ) :
    Transport.supply (broken.read n).2.link + bytesGiven (broken.read n).1
      ≤ Transport.supply broken.link := by
  unfold read
  split
  · simp [bytesGiven]
  · exact Transport.supply_read n broken.link

instance : Transport (Breakable τ) where
  read := read
  write := write
  flush := flush
  supply broken := Transport.supply broken.link
  supply_read := supply_read

end Breakable

end Reflash
