/-
  Reflash.Session.Drain

  Feeding a session. Received bytes are looked at frame by frame until less than
  a frame is left; what is left waits for the rest of its frame. Every frame taken
  shortens the inbox, so this ends.
-/
import Reflash.Session.Basic

namespace Reflash

namespace Session

/-! ## One frame shortens the inbox -/

@[simp] theorem inbox_advance (session : Session) : session.advance.inbox = session.inbox := by
  unfold advance queueChunk queue inbox
  split
  · rfl
  · split <;> rfl
  · rfl
  · rfl

theorem inbox_retransmit {session next : Session} (h : session.retransmit = .ok next) :
    next.inbox = session.inbox := by
  unfold retransmit at h
  split at h
  · cases h
  · split at h
    · cases h
    · cases h; rfl

theorem inbox_answer {session next : Session} {ack : Acknowledgement}
    (h : session.answer ack = .ok next) : next.inbox = session.inbox := by
  unfold answer at h
  split at h
  · cases h; rfl
  · cases h; simp
  · cases h; simp
  · exact inbox_retransmit h
  · cases h

theorem inbox_actOn {session next : Session} {receipt : Receipt}
    (h : session.actOn receipt = .ok next) : next.inbox = session.inbox := by
  unfold actOn at h
  split at h
  · cases h
  · cases h; rfl
  · exact inbox_answer h

theorem inbox_takeFrame {session next : Session} (h : session.takeFrame = .ok next) :
    next.inbox = session.endpoint.receive.2.link.incoming :=
  inbox_actOn h

theorem length_inbox_takeFrame_lt {session next : Session} (hne : session.inbox ≠ [])
    (h : session.takeFrame = .ok next) : next.inbox.length < session.inbox.length := by
  rw [inbox_takeFrame h]
  -- A first read of one byte succeeds, and the endpoint reads at least that much.
  obtain ⟨byte, bytes, hbytes⟩ := List.exists_cons_of_ne_nil hne
  exact Endpoint.supply_receive_lt
    (show Transport.read 1 session.endpoint.link = (.ok (byte :: []), _) by
      simp only [Transport.read, Loopback.read]
      rw [show session.endpoint.link.incoming = byte :: bytes from hbytes]
      rfl)

theorem length_inbox_dropNoise_le (session : Session) :
    session.dropNoise.inbox.length ≤ session.inbox.length :=
  (List.dropWhile_sublist _).length_le

/-! ## Feeding -/

/-- Looks at the inbox until less than a frame is left, or the session is done. -/
def drain (session : Session) : Except SessionError Session :=
  if _h : session.dropNoise.inbox.length < Packet.frameSize then .ok session.dropNoise
  else match _hs : session.dropNoise.takeFrame with
    | .error error => .error error
    -- Once the jump request is due, what else has been received does not matter.
    | .ok next => if next.stage = .done then .ok next else drain next
termination_by session.inbox.length
decreasing_by
  -- An inbox that holds a frame is not empty.
  have hne : session.dropNoise.inbox ≠ [] := by
    intro hnil
    simp [hnil, Packet.frameSize] at _h
  have := length_inbox_takeFrame_lt hne _hs
  have := length_inbox_dropNoise_le session
  omega

/-- Takes bytes received from the node and acts on them. The first call, as a rule without
bytes, makes the announcement of the image due. -/
def feed (session : Session) (incoming : Bytes) : Except SessionError Session :=
  if incoming.length + session.inbox.length > session.endpoint.link.capacity then
    .error .noRoom
  else
    let session := session.withInbox (session.inbox ++ incoming)
    match session.stage with
    | .start => .ok { session.queue session.manifestDatagram with stage := .awaitingManifest }
    | .done => .error .sessionEnded
    | .awaitingManifest | .awaitingChunk _ => session.drain

/-- Has the outstanding datagram sent again because the node has not answered in time. What was
received in part is dropped. -/
def timeOut (session : Session) : Except SessionError Session :=
  match session.stage with
  | .start | .done => .ok session
  | .awaitingManifest | .awaitingChunk _ => (session.withInbox []).retransmit

/-- Whether the jump request has been made due. A node does not answer a jump that succeeds. -/
def ended (session : Session) : Bool :=
  session.stage == .done

end Session

end Reflash
