/-
  Reflash.Proofs.Feeding

  Bytes reach a session in whatever pieces the link gives. A frame that has come in
  part waits in the inbox for the rest of it, noise is dropped up to the next start
  marker, and a frame is taken only once it is whole. So what the pieces come to does
  not depend on where they were cut: bytes that come later change nothing of what a
  session makes of those before them, they only wait behind them.
-/
import Mathlib.Data.List.DropRight
import Reflash.Proofs.Session

namespace Reflash

namespace Session

variable {session next : Session} {more : Bytes}

/-! ## Acting leaves the inbox alone -/

/-- A session that has received some more bytes. -/
def hear (session : Session) (more : Bytes) : Session :=
  session.withInbox (session.inbox ++ more)

theorem advance_withInbox (session : Session) (bytes : Bytes) :
    (session.withInbox bytes).advance = session.advance.withInbox bytes := by
  simp only [advance, show (session.withInbox bytes).stage = session.stage from rfl,
    show (session.withInbox bytes).chunkCount = session.chunkCount from rfl]
  split
  · rfl
  · split <;> rfl
  · rfl
  · rfl

theorem retransmit_withInbox (session : Session) (bytes : Bytes) :
    (session.withInbox bytes).retransmit = session.retransmit.map (·.withInbox bytes) := by
  simp only [retransmit_eq, show (session.withInbox bytes).retries = session.retries from rfl,
    show (session.withInbox bytes).options = session.options from rfl]
  split <;> rfl

theorem answer_withInbox (session : Session) (bytes : Bytes) (ack : Acknowledgement) :
    (session.withInbox bytes).answer ack = (session.answer ack).map (·.withInbox bytes) := by
  rw [answer, answer, show (session.withInbox bytes).judge ack = session.judge ack from rfl]
  cases session.judge ack with
  | stale => rfl
  | accepted => exact congrArg Except.ok (advance_withInbox session bytes)
  | alreadyApplied => exact congrArg Except.ok (advance_withInbox session bytes)
  | tryAgain => exact retransmit_withInbox session bytes
  | rejected kind code => rfl

theorem actOn_withInbox (session : Session) (bytes : Bytes) (receipt : Receipt) :
    (session.withInbox bytes).actOn receipt
      = (session.actOn receipt).map (·.withInbox bytes) := by
  rw [actOn, actOn]
  split
  · rfl
  · rfl
  next ack _ => exact answer_withInbox session bytes ack

/-- What a session makes of a receipt is the same when more bytes wait. -/
theorem actOn_hear (session : Session) (more : Bytes) (receipt : Receipt) :
    (session.hear more).actOn receipt = (session.actOn receipt).map (·.hear more) := by
  rw [hear, actOn_withInbox]
  cases hnext : session.actOn receipt with
  | error error => rfl
  | ok next =>
    show Except.ok (next.withInbox (session.inbox ++ more)) = .ok (next.hear more)
    rw [hear, inbox_actOn hnext]

/-- All that a receipt can do to a session: nothing, if it brings no acknowledgement or a stale one;
else it is moved on, or sends again. -/
theorem actOn_cases {receipt : Receipt} (hnext : session.actOn receipt = .ok next) :
    next = session ∧ (∀ ack, acknowledgement? receipt = .ok (some ack) → session.judge ack = .stale)
    ∨ ∃ ack, acknowledgement? receipt = .ok (some ack)
      ∧ ((session.judge ack = .accepted ∨ session.judge ack = .alreadyApplied)
          ∧ next = session.advance
        ∨ session.judge ack = .tryAgain ∧ session.retransmit = .ok next) := by
  rw [actOn] at hnext
  cases hack : acknowledgement? receipt with
  | error error =>
    rw [hack] at hnext
    cases hnext
  | ok ack? =>
    rw [hack] at hnext
    cases ack? with
    | none => exact .inl ⟨(Except.ok.inj hnext).symm, by simp⟩
    | some ack =>
      have hanswer : session.answer ack = .ok next := hnext
      rw [answer] at hanswer
      cases hjudge : session.judge ack <;> rw [hjudge] at hanswer
      case stale =>
        refine .inl ⟨(Except.ok.inj hanswer).symm, ?_⟩
        rintro _ ⟨rfl⟩
        exact hjudge
      case accepted => exact .inr ⟨ack, rfl, .inl ⟨.inl hjudge, (Except.ok.inj hanswer).symm⟩⟩
      case alreadyApplied =>
        exact .inr ⟨ack, rfl, .inl ⟨.inr hjudge, (Except.ok.inj hanswer).symm⟩⟩
      case tryAgain => exact .inr ⟨ack, rfl, .inr ⟨hjudge, hanswer⟩⟩
      case rejected => cases hanswer

theorem retransmit_eq_ok (hnext : session.retransmit = .ok next) :
    next = { session with retries := session.retries + 1, due := true }
      ∧ session.retries.toNat < session.options.maxRetries.toNat := by
  rw [retransmit_eq] at hnext
  split at hnext
  next hallowed => exact ⟨(Except.ok.inj hnext).symm, hallowed⟩
  next => cases hnext

theorem stage_advance_ne_start (h : session.stage ≠ .start) : session.advance.stage ≠ .start := by
  rw [advance]
  split
  · simp [queueChunk]
  · split <;> simp [queueChunk]
  next hstart => exact absurd hstart h
  next hdone => exact fun hstart => SessionStage.noConfusion (hdone.symm.trans hstart)

/-- Acting on a receipt leaves alone what is received, and never leads back to the start. -/
theorem actOn_keeps {receipt : Receipt} (hnext : session.actOn receipt = .ok next) :
    next.endpoint = session.endpoint ∧ (session.stage ≠ .start → next.stage ≠ .start) := by
  rcases actOn_cases hnext with ⟨rfl, -⟩ | ⟨_, _, ⟨_, rfl⟩ | ⟨_, hagain⟩⟩
  · exact ⟨rfl, id⟩
  · exact ⟨endpoint_advance session, stage_advance_ne_start⟩
  · obtain ⟨rfl, -⟩ := retransmit_eq_ok hagain
    exact ⟨rfl, id⟩

/-! ## One frame -/

/-- Noise ends at a start marker. -/
theorem eq_startMarker_of_dropNoise {byte : UInt8} {bytes : Bytes}
    (h : session.dropNoise.inbox = byte :: bytes) : byte = Packet.startMarker := by
  have hnot := List.head?_dropWhile_not (· ≠ Packet.startMarker) session.inbox
  rw [show session.inbox.dropWhile (· ≠ Packet.startMarker) = byte :: bytes from h] at hnot
  simpa using hnot

/-- An inbox that holds a frame's worth of bytes behind the noise begins with a block of the length
of a frame. -/
theorem dropNoise_marked (h : ¬session.dropNoise.inbox.length < Packet.frameSize) :
    ∃ body rest, body.length = 141
      ∧ session.dropNoise.inbox = Packet.startMarker :: body ++ rest := by
  have hlength : 142 ≤ session.dropNoise.inbox.length := Nat.not_lt.1 h
  obtain ⟨byte, bytes, hbytes⟩ :=
    List.exists_cons_of_length_pos (Nat.lt_of_lt_of_le (by decide) hlength)
  rw [hbytes, List.length_cons] at hlength
  refine ⟨bytes.take 141, bytes.drop 141, List.length_take_of_le (by omega), ?_⟩
  rw [hbytes, eq_startMarker_of_dropNoise hbytes, List.cons_append, List.take_append_drop]

theorem length_inbox_takeFrame_dropNoise_lt (h : ¬session.dropNoise.inbox.length < Packet.frameSize)
    (hnext : session.dropNoise.takeFrame = .ok next) :
    next.inbox.length < session.inbox.length := by
  have hne : session.dropNoise.inbox ≠ [] := by
    intro hnil
    rw [hnil] at h
    exact h (by decide)
  exact Nat.lt_of_lt_of_le (length_inbox_takeFrame_lt hne hnext)
    (length_inbox_dropNoise_le session)

/-- The block at the front of the inbox is taken and acted on. -/
theorem takeFrame_marked {body rest : Bytes} (hbody : body.length = 141)
    (hinbox : session.inbox = Packet.startMarker :: body ++ rest) :
    session.takeFrame
      = (session.behind rest (session.endpoint.assembly.take (Packet.startMarker :: body)).2
          (session.endpoint.stats.count
            (session.endpoint.assembly.take (Packet.startMarker :: body)).1)).actOn
        (session.endpoint.assembly.take (Packet.startMarker :: body)).1 := by
  rw [takeFrame, receive, Endpoint.receive_marked hbody hinbox]
  rfl

/-- A frame that is there is taken the same way when more bytes wait behind it. -/
theorem takeFrame_hear {body rest : Bytes} (hbody : body.length = 141)
    (hinbox : session.inbox = Packet.startMarker :: body ++ rest) (more : Bytes) :
    (session.hear more).takeFrame = session.takeFrame.map (·.hear more) := by
  have hlonger : (session.hear more).inbox = Packet.startMarker :: body ++ (rest ++ more) := by
    show session.inbox ++ more = _
    rw [hinbox, List.append_assoc]
  rw [takeFrame_marked hbody hlonger, takeFrame_marked hbody hinbox]
  exact actOn_hear (session.behind rest _ _) more _

/-- Noise in front of a frame is dropped the same way when more bytes wait behind it. -/
theorem dropNoise_hear (h : session.dropNoise.inbox ≠ []) (more : Bytes) :
    (session.hear more).dropNoise = session.dropNoise.hear more := by
  show session.withInbox ((session.inbox ++ more).dropWhile _) = session.withInbox (_ ++ more)
  rw [List.dropWhile_append, if_neg]
  · rfl
  · exact fun hnil => h (List.isEmpty_iff.1 hnil)

/-- Noise that is dropped before more bytes come would be dropped behind them. -/
theorem dropNoise_hear_dropNoise (session : Session) (more : Bytes) :
    (session.dropNoise.hear more).dropNoise = (session.hear more).dropNoise := by
  show session.withInbox ((session.inbox.dropWhile _ ++ more).dropWhile _)
    = session.withInbox ((session.inbox ++ more).dropWhile _)
  rw [List.dropWhile_append, List.dropWhile_append, List.dropWhile_idempotent]

/-! ## Any bytes -/

/-- A frame that is there is taken either way; what comes of it is looked at in its place. -/
theorem drain_hear_of_frame (h : ¬session.dropNoise.inbox.length < Packet.frameSize)
    (more : Bytes) : (session.hear more).drain
      = session.dropNoise.takeFrame >>= fun next =>
        if next.stage = .done then .ok (next.hear more) else (next.hear more).drain := by
  obtain ⟨body, rest, hbody, hinbox⟩ := dropNoise_marked h
  have hne : session.dropNoise.inbox ≠ [] := by
    rw [hinbox]
    exact List.cons_ne_nil _ _
  have hlonger : ¬(session.dropNoise.hear more).inbox.length < Packet.frameSize := by
    show ¬(session.dropNoise.inbox ++ more).length < _
    rw [List.length_append]
    omega
  rw [drain_eq (session.hear more), dropNoise_hear hne, if_neg hlonger,
    takeFrame_hear hbody hinbox]
  cases session.dropNoise.takeFrame <;> rfl

/-- Looking at some bytes first, and at the rest behind what is left of them, is looking at all of
them. -/
theorem drain_hear (hdone : session.stage ≠ .done) (more : Bytes) :
    (session.hear more).drain = session.drain >>= fun next =>
      if next.stage = .done then .ok (next.hear more) else (next.hear more).drain := by
  induction session using drain.induct with
  | case1 session hshort =>
    rw [drain_eq session, if_pos hshort]
    show _ = if session.stage = .done then _ else (session.dropNoise.hear more).drain
    rw [if_neg hdone, drain_eq, drain_eq (session.dropNoise.hear more), dropNoise_hear_dropNoise]
  | case2 session hframe error herror =>
    rw [drain_hear_of_frame hframe, drain_eq session, if_neg hframe, herror]
    rfl
  | case3 session hframe next hnext hend =>
    rw [drain_hear_of_frame hframe, drain_eq session, if_neg hframe, hnext]
    show (if _ then _ else _) = (if _ then _ else _) >>= _
    rw [if_pos hend, if_pos hend]
    exact (if_pos hend).symm
  | case4 session hframe next hnext hmore ih =>
    rw [drain_hear_of_frame hframe, drain_eq session, if_neg hframe, hnext]
    show (if _ then _ else _) = (if _ then _ else _) >>= _
    rw [if_neg hmore, if_neg hmore]
    exact ih hmore

/-- Taking a frame leaves the buffer its room, and never leads back to the start. -/
theorem takeFrame_keeps (h : ¬session.dropNoise.inbox.length < Packet.frameSize)
    (hnext : session.dropNoise.takeFrame = .ok next) :
    next.endpoint.link.capacity = session.endpoint.link.capacity
      ∧ (session.stage ≠ .start → next.stage ≠ .start) := by
  obtain ⟨body, rest, hbody, hinbox⟩ := dropNoise_marked h
  rw [takeFrame_marked hbody hinbox] at hnext
  obtain ⟨hendpoint, hstage⟩ := actOn_keeps hnext
  refine ⟨?_, hstage⟩
  rw [hendpoint]
  rfl

/-- Looking at the inbox frees room, and never leads back to the start. -/
theorem drain_room {last : Session} (hstart : session.stage ≠ .start)
    (hlast : session.drain = .ok last) :
    last.stage ≠ .start ∧ last.endpoint.link.capacity = session.endpoint.link.capacity
      ∧ last.inbox.length ≤ session.inbox.length := by
  induction session using drain.induct with
  | case1 session hshort =>
    rw [drain_eq, if_pos hshort] at hlast
    cases hlast
    exact ⟨hstart, rfl, length_inbox_dropNoise_le session⟩
  | case2 session hframe error herror =>
    rw [drain_eq, if_neg hframe, herror] at hlast
    cases hlast
  | case3 session hframe next hnext hend =>
    rw [drain_eq, if_neg hframe, hnext] at hlast
    obtain rfl : next = last := Except.ok.inj ((if_pos hend).symm.trans hlast)
    obtain ⟨hcapacity, hstage⟩ := takeFrame_keeps hframe hnext
    exact ⟨hstage hstart, hcapacity,
      Nat.le_of_lt (length_inbox_takeFrame_dropNoise_lt hframe hnext)⟩
  | case4 session hframe next hnext hmore ih =>
    rw [drain_eq, if_neg hframe, hnext] at hlast
    obtain ⟨hcapacity, hstage⟩ := takeFrame_keeps hframe hnext
    have hless := length_inbox_takeFrame_dropNoise_lt hframe hnext
    obtain ⟨hnotStart, hsame, hfewer⟩ := ih (hstage hstart) ((if_neg hmore).symm.trans hlast)
    exact ⟨hnotStart, hsame.trans hcapacity, by omega⟩

/-- Bytes that come in two pieces are made the same of as bytes that come at once. A session that
has ended with the first of them leaves the others in its inbox. -/
theorem feed_pieces {first second : Bytes} (hstart : session.stage ≠ .start)
    (hdone : session.stage ≠ .done)
    (hroom : first.length + second.length + session.inbox.length
      ≤ session.endpoint.link.capacity) :
    session.feed (first ++ second) = session.feed first >>= fun next =>
      if next.stage = .done then .ok (next.hear second) else next.feed second := by
  have hwhole : session.feed (first ++ second) = ((session.hear first).hear second).drain := by
    rw [feed_eq_drain hstart hdone (by rw [List.length_append]; omega), ← List.append_assoc]
    rfl
  have hpart : session.feed first = (session.hear first).drain :=
    feed_eq_drain hstart hdone (by omega)
  rw [hwhole, drain_hear (show (session.hear first).stage ≠ .done from hdone), hpart]
  cases hnext : (session.hear first).drain with
  | error error => rfl
  | ok next =>
    show (if next.stage = .done then Except.ok (next.hear second) else (next.hear second).drain)
      = if next.stage = .done then .ok (next.hear second) else next.feed second
    by_cases hend : next.stage = .done
    · rw [if_pos hend, if_pos hend]
    · obtain ⟨hnotStart, hcapacity, hfewer⟩ :=
        drain_room (show (session.hear first).stage ≠ .start from hstart) hnext
      have hfewer : next.inbox.length ≤ (session.inbox ++ first).length := hfewer
      have hcapacity : next.endpoint.link.capacity = session.endpoint.link.capacity := hcapacity
      rw [List.length_append] at hfewer
      rw [if_neg hend, if_neg hend, feed_eq_drain hnotStart hend (by omega)]
      rfl

/-- A session makes the same of what it receives wherever that is cut into pieces. The error that
the first piece leads to is the error that all lead to, and short of the end the first piece and
then the second lead to the very session, or error, that both lead to at once. -/
theorem feed_append {first second : Bytes} (hstart : session.stage ≠ .start)
    (hdone : session.stage ≠ .done)
    (hroom : first.length + second.length + session.inbox.length
      ≤ session.endpoint.link.capacity) :
    (∀ error, session.feed first = .error error →
      session.feed (first ++ second) = .error error)
    ∧ ∀ next, session.feed first = .ok next → next.stage ≠ .done →
      next.feed second = session.feed (first ++ second) := by
  have hpieces := feed_pieces hstart hdone hroom
  constructor
  · intro error herror
    rw [hpieces, herror]
    rfl
  · intro next hnext hmore
    rw [hpieces, hnext]
    exact (if_neg hmore).symm

/-- A session that has announced a small image. -/
def announced : Session :=
  opened 300 [0x01, 0x02, 0x03, 0x04, 0x05, 0x06] { chunkSize := 4 }

/-- Noise, and the answer that the announcement is accepted. -/
def noisyAnswer : Bytes :=
  [0x00, 0x01] ++ (announced.manifestDatagram.answer (.ok ())).frames.flatten

/-- The answer that the announcement is refused. -/
def refusal : Bytes :=
  (announced.manifestDatagram.answer (.error .binaryOversized)).frames.flatten

/-- Cut within its second frame, the answer moves the session on with its second piece; and a
refusal stays one whatever comes behind it. -/
theorem feed_append_announced :
    (∃ next last, announced.feed (noisyAnswer.take 200) = .ok next
      ∧ next.stage = .awaitingManifest ∧ next.inbox.length = 56
      ∧ next.feed (noisyAnswer.drop 200) = .ok last ∧ last.stage = .awaitingChunk 0
      ∧ announced.feed (noisyAnswer.take 200 ++ noisyAnswer.drop 200) = .ok last)
    ∧ announced.feed (refusal ++ [0x00])
      = .error (.nodeRejected .firmwareMetadata Fault.binaryOversized.code) := by
  have hpart : (announced.feed (noisyAnswer.take 200)).toOption.map
      (fun next => (next.stage, next.inbox.length)) = some (.awaitingManifest, 56) := by
    decide +kernel
  have hwhole : (announced.feed (noisyAnswer.take 200 ++ noisyAnswer.drop 200)).toOption.map
      (·.stage) = some (.awaitingChunk 0) := by
    decide +kernel
  have hrefusal : (match announced.feed refusal with
      | .ok _ => none
      | .error error => some error)
      = some (.nodeRejected .firmwareMetadata Fault.binaryOversized.code) := by
    decide +kernel
  have hroom : (noisyAnswer.take 200).length + (noisyAnswer.drop 200).length
      + announced.inbox.length ≤ announced.endpoint.link.capacity := by
    decide +kernel
  have hroom' : refusal.length + [(0x00 : UInt8)].length + announced.inbox.length
      ≤ announced.endpoint.link.capacity := by
    decide +kernel
  have hwaiting : announced.stage ≠ .start ∧ announced.stage ≠ .done := by decide
  constructor
  · cases hnext : announced.feed (noisyAnswer.take 200) with
    | error error =>
      rw [hnext] at hpart
      cases hpart
    | ok next =>
      cases hlast : announced.feed (noisyAnswer.take 200 ++ noisyAnswer.drop 200) with
      | error error =>
        rw [hlast] at hwhole
        cases hwhole
      | ok last =>
        rw [hnext] at hpart
        rw [hlast] at hwhole
        obtain ⟨hstage, hinbox⟩ := Prod.mk.inj (Option.some.inj hpart)
        have hsame := (feed_append hwaiting.1 hwaiting.2 hroom).2 next hnext
          (by rw [hstage]; exact nofun)
        exact ⟨next, last, rfl, hstage, hinbox, hsame.trans hlast, Option.some.inj hwhole, rfl⟩
  · refine (feed_append hwaiting.1 hwaiting.2 hroom').1 _ ?_
    split at hrefusal
    next => cases hrefusal
    next error herror => rw [herror, Option.some.inj hrefusal]

end Session

end Reflash
