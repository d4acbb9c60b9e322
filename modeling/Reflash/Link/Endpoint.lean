/-
  Reflash.Link.Endpoint

  One end of a link: it turns a byte stream into verified datagrams, and datagrams
  into frames. One call to `receive` takes at most one frame
  off the link: it looks for a start marker, reads the rest of the frame, and
  applies the packet in it to the datagram under way. What came of it is a
  `Receipt`; a datagram that completes with the right checksum is part of the
  receipt, and leaves the endpoint empty for the next one. Nothing else is kept
  between calls, so a frame cut short is lost and has to be sent again.
-/
import Reflash.Datagram.Assembly
import Reflash.Link.Transport

namespace Reflash

/-! ## Receipts -/

/-- What came of one attempt to receive a frame. -/
inductive Receipt where
  /-- The stream ran dry before a start marker. -/
  | silence
  /-- The stream ran dry inside a frame of which `filled` bytes had come. -/
  | cutShort (filled : Nat)
  /-- The link failed other than by running dry. -/
  | linkFailed (error : LinkError)
  /-- Markers, kind or length were impossible. -/
  | malformed (fault : Fault)
  /-- The payload does not match its checksum. -/
  | corrupt (packet : Packet)
  /-- Well formed, but not a packet that is reassembled. -/
  | unrouted (packet : Packet)
  /-- The reassembler did not take the packet. -/
  | refused (packet : Packet) (fault : Fault)
  /-- Applied; the datagram is still incomplete. -/
  | accepted (packet : Packet)
  /-- Completed a datagram whose checksum is wrong; it was dropped. -/
  | spoiled (packet : Packet) (datagram : Datagram)
  /-- Completed a datagram. -/
  | delivered (packet : Packet) (datagram : Datagram)
  deriving DecidableEq

namespace Receipt

/-- Gives a datagram that was delivered to `handler`, and tells what it made of it. -/
def handOver {σ : Type} (handler : Datagram → StateM σ (Except Fault Unit)) :
    Receipt → StateM σ (Option (Except Fault Unit))
  | delivered _ datagram => some <$> handler datagram
  | _ => pure none

end Receipt

/-- Why a frame was discarded without a word to the reassembler. -/
inductive DiscardReason where
  | malformed
  | crcMismatch
  | unrouted
  deriving DecidableEq, Inhabited

namespace DiscardReason

def name : DiscardReason → String
  | malformed => "Malformed"
  | crcMismatch => "CrcMismatch"
  | unrouted => "Unrouted"

end DiscardReason

/-! ## Counters -/

/-- What an endpoint has seen so far. -/
structure LinkStats where
  /-- Whole frames. -/
  frames : Nat := 0
  malformed : Nat := 0
  crcFailed : Nat := 0
  unrouted : Nat := 0
  partialFrames : Nat := 0
  /-- Bytes passed over while looking for a start marker. -/
  skipped : Nat := 0
  rejected : Nat := 0
  delivered : Nat := 0
  /-- Datagrams dropped for a wrong checksum. -/
  spoiled : Nat := 0
  deriving DecidableEq, Inhabited

namespace LinkStats

/-- Counts one whole frame and what came of it. -/
def count (stats : LinkStats) : Receipt → LinkStats
  | .silence | .linkFailed _ => stats
  | .cutShort _ => { stats with partialFrames := stats.partialFrames + 1 }
  | .malformed _ =>
    { stats with frames := stats.frames + 1, malformed := stats.malformed + 1 }
  | .corrupt _ => { stats with frames := stats.frames + 1, crcFailed := stats.crcFailed + 1 }
  | .unrouted _ => { stats with frames := stats.frames + 1, unrouted := stats.unrouted + 1 }
  | .refused _ _ => { stats with frames := stats.frames + 1, rejected := stats.rejected + 1 }
  | .accepted _ => { stats with frames := stats.frames + 1 }
  | .spoiled _ _ => { stats with frames := stats.frames + 1, spoiled := stats.spoiled + 1 }
  | .delivered _ _ =>
    { stats with frames := stats.frames + 1, delivered := stats.delivered + 1 }

end LinkStats

/-! ## From a frame to a receipt -/

namespace Assembly

/-- Hands a packet to the reassembler, `none` when it is of a kind that is not reassembled. -/
def route? (assembly : Assembly) (packet : Packet) : Option (Except Fault Assembly) :=
  match packet.kind with
  | .header => if packet.sequence = 0 then some (assembly.acceptHeader packet) else none
  | .data => some (assembly.acceptData packet)
  | _ => none

/-- Takes one frame, and tells what came of it. -/
def take (assembly : Assembly) (frame : Bytes) : Receipt × Assembly :=
  match Packet.ofFrame frame with
  | .error fault => (.malformed fault, assembly)
  | .ok packet =>
    if packet.payloadCrc ≠ packet.crc then (.corrupt packet, assembly)
    else match assembly.route? packet with
      | none => (.unrouted packet, assembly)
      | some (.error fault) => (.refused packet fault, assembly)
      | some (.ok next) =>
        if !next.isComplete then (.accepted packet, next)
        -- Right or wrong, a complete datagram makes room for the next.
        else match next.verify with
          | .error _ => (.spoiled packet next.datagram, none)
          | .ok () => (.delivered packet next.datagram, none)

end Assembly

/-! ## From the link to a frame -/

namespace Transport

variable {τ : Type} [Transport τ]

/-- What reading a frame off a link came to. -/
inductive Intake where
  | frame (bytes : Bytes)
  | dry
  | cutShort (filled : Nat)
  | failed (error : LinkError)
  deriving DecidableEq

/-- A failed read ends the intake: running out of time is only running dry. -/
def Intake.ofError : LinkError → Intake
  | .timedOut => .dry
  | error => .failed error

/-- Passes over bytes up to a start marker. Gives `none` once the marker is taken, and counts
the bytes before it on top of `skipped`. -/
def seek (skipped : Nat) (link : τ) : Option Intake × Nat × τ :=
  match h : read 1 link with
  | (.ok [], link) => (some .dry, skipped, link)
  | (.ok (byte :: _), link') =>
    if byte = Packet.startMarker then (none, skipped, link') else seek (skipped + 1) link'
  | (.error error, link) => (some (.ofError error), skipped, link)
termination_by supply link
decreasing_by
  have := supply_read 1 link
  simp [h, bytesGiven] at this
  omega

/-- Reads on until the frame that begins with `frame` is whole. -/
def fill (frame : Bytes) (link : τ) : Intake × τ :=
  if _h : frame.length < Packet.frameSize then
    match read (Packet.frameSize - frame.length) link with
    | (.ok [], link) => (.cutShort frame.length, link)
    | (.ok (byte :: bytes), link) => fill (frame ++ byte :: bytes) link
    | (.error .timedOut, link) => (.cutShort frame.length, link)
    | (.error error, link) => (.failed error, link)
  else (.frame frame, link)
termination_by Packet.frameSize - frame.length
decreasing_by simp; omega

/-- Reads one frame. Also counts the bytes passed over in front of it. -/
def readFrame (link : τ) : Intake × Nat × τ :=
  match seek 0 link with
  | (some intake, skipped, link) => (intake, skipped, link)
  | (none, skipped, link) =>
    let (intake, link) := fill [Packet.startMarker] link
    (intake, skipped, link)

/-! Reading a frame never adds to the supply, and takes from it when bytes are at hand. -/

theorem supply_seek_le (skipped : Nat) (link : τ) :
    supply (seek skipped link).2.2 ≤ supply link := by
  fun_induction seek skipped link with
  | case1 skipped link link' h => simpa [h, bytesGiven] using supply_read 1 link
  | case2 skipped link bytes link' h =>
    have := supply_read 1 link
    simp only [h, bytesGiven] at this
    exact Nat.le_of_add_right_le this
  | case3 skipped link byte bytes link' h hmark ih =>
    have := supply_read 1 link
    simp [h, bytesGiven] at this
    omega
  | case4 skipped link error link' h => simpa [h, bytesGiven] using supply_read 1 link

theorem supply_fill_le (frame : Bytes) (link : τ) :
    supply (fill frame link).2 ≤ supply link := by
  fun_induction fill frame link with
  | case1 frame link _ link' h =>
    simpa [h, bytesGiven] using supply_read (Packet.frameSize - frame.length) link
  | case2 frame link _ byte bytes link' h ih =>
    have := supply_read (Packet.frameSize - frame.length) link
    simp [h, bytesGiven] at this
    omega
  | case3 frame link _ link' h =>
    simpa [h, bytesGiven] using supply_read (Packet.frameSize - frame.length) link
  | case4 frame link _ error link' _ h =>
    simpa [h, bytesGiven] using supply_read (Packet.frameSize - frame.length) link
  | case5 => simp

theorem supply_readFrame_le_seek (link : τ) :
    supply (readFrame link).2.2 ≤ supply (seek 0 link).2.2 := by
  unfold readFrame
  split
  · rename_i h; simp [h]
  · rename_i h; simpa [h] using supply_fill_le _ _

theorem supply_seek_lt {skipped : Nat} {link link' : τ} {byte : UInt8} {bytes : Bytes}
    (h : read 1 link = (.ok (byte :: bytes), link')) :
    supply (seek skipped link).2.2 < supply link := by
  have hread := supply_read 1 link
  simp [h, bytesGiven] at hread
  have : supply (seek skipped link).2.2 ≤ supply link' := by
    -- Whatever the byte is, seeking goes on from where the read has left the link.
    rw [seek.eq_def]
    split <;> rename_i h' <;> rw [h] at h' <;> cases h'
    split
    · exact Nat.le_refl _
    · exact supply_seek_le _ _
  omega

end Transport

/-! ## The endpoint -/

/-- A link, the datagram under way on it, and counters. -/
structure Endpoint (τ : Type) where
  link : τ
  assembly : Assembly := none
  stats : LinkStats := {}

namespace Endpoint

variable {τ : Type} [Transport τ]

/-- Takes at most one frame off the link. -/
def receive (endpoint : Endpoint τ) : Receipt × Endpoint τ :=
  let (intake, skipped, link) := Transport.readFrame endpoint.link
  let (receipt, assembly) : Receipt × Assembly := match intake with
    | .dry => (.silence, endpoint.assembly)
    | .cutShort filled => (.cutShort filled, endpoint.assembly)
    | .failed error => (.linkFailed error, endpoint.assembly)
    | .frame bytes => endpoint.assembly.take bytes
  (receipt, {
    link, assembly
    stats := { endpoint.stats with skipped := endpoint.stats.skipped + skipped }.count receipt })

theorem supply_receive_lt {endpoint : Endpoint τ} {link' : τ} {byte : UInt8} {bytes : Bytes}
    (h : Transport.read 1 endpoint.link = (.ok (byte :: bytes), link')) :
    Transport.supply endpoint.receive.2.link < Transport.supply endpoint.link :=
  Nat.lt_of_le_of_lt (Transport.supply_readFrame_le_seek endpoint.link)
    (Transport.supply_seek_lt h)

/-- Receives until the link has nothing more to give or fails, at most `limit` times. -/
def receiveAll : Nat → Endpoint τ → List Receipt × Endpoint τ
  | 0, endpoint => ([], endpoint)
  | limit + 1, endpoint =>
    let (receipt, endpoint) := endpoint.receive
    match receipt with
    | .silence | .cutShort _ | .linkFailed _ => ([receipt], endpoint)
    | _ =>
      let (receipts, endpoint) := receiveAll limit endpoint
      (receipt :: receipts, endpoint)

/-- Sends every frame of a datagram, then flushes. -/
def send (endpoint : Endpoint τ) (datagram : Datagram) : Except Fault Unit × Endpoint τ :=
  match Transport.writeEach datagram.frames endpoint.link with
  | (.error _, link) => (.error .transportFailure, { endpoint with link })
  | (.ok (), link) =>
    match Transport.flush link with
    | (.error _, link) => (.error .transportFailure, { endpoint with link })
    | (.ok (), link) => (.ok (), { endpoint with link })

end Endpoint

end Reflash
