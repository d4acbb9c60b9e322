/-
  Reflash.Link.Gate

  The polling loop of a device that must not be held up inside a frame. Noise is
  dropped from the ring first, and a frame is received only once all of it is
  queued; a datagram that completes with it is handed over at once. A driver pushes
  bytes between one run of the loop and the next, cut wherever they happened to come.
-/
import Reflash.Link.Endpoint
import Reflash.Link.Ring

namespace Reflash

/-- What a call comes to, and what the handler made of the datagram if it was given one. -/
abbrev Outcome := Receipt × Option (Except Fault Unit)

namespace Endpoint

variable {σ : Type}

/-- Bytes waiting in the ring. -/
def queued (endpoint : Endpoint RingLink) : Bytes :=
  endpoint.link.reader.ring.queued

/-- The endpoint when bytes have gone into the ring or out of it. -/
def withRing (endpoint : Endpoint RingLink) (ring : Ring) : Endpoint RingLink :=
  { endpoint with link.reader.ring := ring }

@[simp] theorem assembly_withRing (endpoint : Endpoint RingLink) (ring : Ring) :
    (endpoint.withRing ring).assembly = endpoint.assembly := rfl

@[simp] theorem stats_withRing (endpoint : Endpoint RingLink) (ring : Ring) :
    (endpoint.withRing ring).stats = endpoint.stats := rfl

/-- Drops bytes ahead of the next start marker. -/
def dropNoise (endpoint : Endpoint RingLink) : Endpoint RingLink :=
  endpoint.withRing (endpoint.link.reader.ring.discardUntil Packet.startMarker).2

theorem queued_dropNoise (endpoint : Endpoint RingLink) :
    endpoint.dropNoise.queued = endpoint.queued.dropWhile (· ≠ Packet.startMarker) := by
  rw [queued, dropNoise, withRing, Ring.discardUntil_eq, queued]

/-- A whole frame is taken out of the ring. -/
theorem length_queued_receive_lt {endpoint : Endpoint RingLink}
    (h : ¬endpoint.dropNoise.queued.length < Packet.frameSize) :
    endpoint.dropNoise.receive.2.queued.length < endpoint.queued.length := by
  have hne : endpoint.dropNoise.queued ≠ [] := by
    intro hnil
    simp [hnil, Packet.frameSize] at h
  obtain ⟨byte, bytes, hbytes⟩ := List.exists_cons_of_ne_nil hne
  have hread : (Transport.read 1 endpoint.dropNoise.link).1 = .ok [byte] := by
    show (RingReader.read 1 endpoint.dropNoise.link.reader).1 = _
    rw [RingReader.read_queued Nat.one_pos hne]
    show Except.ok (endpoint.dropNoise.queued.take 1) = _
    rw [hbytes]
    rfl
  have hshorter := supply_receive_lt (Prod.ext hread rfl)
  have hdropped := (List.dropWhile_sublist (· ≠ Packet.startMarker)
    (l := endpoint.queued)).length_le
  rw [← queued_dropNoise] at hdropped
  exact Nat.lt_of_lt_of_le hshorter hdropped

/-- Receives frame after frame as long as a whole one is queued. -/
def serve (handler : Datagram → StateM σ (Except Fault Unit)) (endpoint : Endpoint RingLink) :
    StateM σ (List Outcome × Endpoint RingLink) :=
  if _h : endpoint.dropNoise.queued.length < Packet.frameSize then
    pure ([], endpoint.dropNoise)
  else do
    let answer ← endpoint.dropNoise.receive.1.handOver handler
    let (outcomes, last) ← serve handler endpoint.dropNoise.receive.2
    pure ((endpoint.dropNoise.receive.1, answer) :: outcomes, last)
termination_by endpoint.queued.length
decreasing_by exact length_queued_receive_lt _h

/-- What comes of a driver and a polling loop that take turns. -/
structure Service where
  /-- How each push ended. -/
  pushes : List (Except Fault Unit)
  outcomes : List Outcome
  endpoint : Endpoint RingLink

/-- Pushes piece after piece, and runs the loop after each. -/
def serveEach (handler : Datagram → StateM σ (Except Fault Unit)) :
    List Bytes → Endpoint RingLink → StateM σ Service
  | [], endpoint => pure ⟨[], [], endpoint⟩
  | piece :: pieces, endpoint => do
    let (pushed, ring) := endpoint.link.reader.ring.pushAll piece
    let (outcomes, endpoint) ← serve handler (endpoint.withRing ring)
    let rest ← serveEach handler pieces endpoint
    pure ⟨pushed :: rest.pushes, outcomes ++ rest.outcomes, rest.endpoint⟩

end Endpoint

end Reflash
