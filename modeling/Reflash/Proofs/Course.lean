/-
  Reflash.Proofs.Course

  The course of a session, whatever its program does with it and whatever bytes come
  in. A call is cut into turns: bytes are received, a frame is taken, noise is dropped,
  time runs out, the frames that are due are collected. After every turn the session
  stands at one datagram of the update and has exactly its frames to send; it goes
  from one to the next only with a verified acknowledgement of it, and believes the
  refusal of another copy only if it has sent one.
-/
import Mathlib.Algebra.Order.Floor.Div
import Reflash.Proofs.Delivery
import Reflash.Proofs.Feeding

namespace Reflash

namespace Session

variable {plan session next last : Session} {k : Nat}

/-! ## Calls and turns -/

/-- What the program around a session does with it. -/
inductive Call where
  | feed (incoming : Bytes)
  | timeOut
  | collect

def perform (session : Session) : Call → Except SessionError Session
  | .feed incoming => session.feed incoming
  | .timeOut => session.timeOut
  | .collect => .ok session.collect.2

/-- Call after call, up to the first that fails. -/
def performAll (session : Session) (calls : List Call) : Except SessionError Session :=
  calls.foldlM perform session

/-- What a session goes through in one turn. -/
inductive Event where
  /-- The first call has the image announced. -/
  | announced
  | received (incoming : Bytes)
  /-- A frame is taken off the inbox. -/
  | took (receipt : Receipt)
  /-- Noise is dropped, and less than a frame is left. -/
  | settled
  | timedOut
  /-- The program asks for what is to be sent. -/
  | collected (bytes? : Option Bytes)

structure Turn where
  before : Session
  event : Event
  after : Session

/-- The turns in which a session looks at its inbox, up to an error if there is one. -/
def drainTurns (session : Session) : List Turn :=
  if _h : session.dropNoise.inbox.length < Packet.frameSize then
    [⟨session, .settled, session.dropNoise⟩]
  else match _hnext : session.dropNoise.takeFrame with
    | .error _ => []
    | .ok next =>
      ⟨session, .took session.dropNoise.receive.1, next⟩
        :: if next.stage = .done then [] else next.drainTurns
termination_by session.inbox.length
decreasing_by exact length_inbox_takeFrame_dropNoise_lt _h _hnext

/-- The turns of one call. -/
def turns (session : Session) : Call → List Turn
  | .feed incoming =>
    if incoming.length + session.inbox.length > session.endpoint.link.capacity then []
    else match session.stage with
      | .start => [⟨session, .announced, { (session.hear incoming).queue
          session.manifestDatagram with stage := .awaitingManifest }⟩]
      | .done => []
      | .awaitingManifest | .awaitingChunk _ =>
        ⟨session, .received incoming, session.hear incoming⟩ :: (session.hear incoming).drainTurns
  | .timeOut =>
    match session.timeOut with
    | .error _ => []
    | .ok next => [⟨session, .timedOut, next⟩]
  | .collect => [⟨session, .collected session.collect.1, session.collect.2⟩]

/-- The turns of call after call. -/
def history (session : Session) : List Call → List Turn
  | [] => []
  | call :: calls => session.turns call ++ match session.perform call with
    | .error _ => []
    | .ok next => next.history calls

/-! ## What a turn can be -/

/-- All that a session can go through in one turn. -/
inductive Turn.Genuine : Turn → Prop
  | announced {session : Session} (incoming : Bytes) (hstart : session.stage = .start) :
    Genuine ⟨session, .announced, { (session.hear incoming).queue
      session.manifestDatagram with stage := .awaitingManifest }⟩
  | received {session : Session} (incoming : Bytes) :
    Genuine ⟨session, .received incoming, session.hear incoming⟩
  | took {session next : Session} (hstart : session.stage ≠ .start)
    (hframe : ¬session.dropNoise.inbox.length < Packet.frameSize)
    (hnext : session.dropNoise.takeFrame = .ok next) :
    Genuine ⟨session, .took session.dropNoise.receive.1, next⟩
  | settled {session : Session} : Genuine ⟨session, .settled, session.dropNoise⟩
  | timedOut {session next : Session} (hnext : session.timeOut = .ok next) :
    Genuine ⟨session, .timedOut, next⟩
  | collected {session : Session} :
    Genuine ⟨session, .collected session.collect.1, session.collect.2⟩

/-- Each turn begins where the one before has ended. -/
def Linked : Session → List Turn → Session → Prop
  | session, [], last => session = last
  | session, turn :: turns, last => turn.before = session ∧ Linked turn.after turns last

theorem Linked.append {turns more : List Turn} (h : Linked session turns next)
    (hmore : Linked next more last) : Linked session (turns ++ more) last := by
  induction turns generalizing session with
  | nil =>
    obtain rfl : session = next := h
    exact hmore
  | cons turn turns ih => exact ⟨h.1, ih h.2⟩

/-- Turns that a session can go through one after the other, with what they come to if there is no
error. -/
structure Traces (session : Session) (turns : List Turn) (result : Except SessionError Session) :
    Prop where
  linked : ∃ last, Linked session turns last ∧ ∀ next, result = .ok next → last = next
  genuine : ∀ turn ∈ turns, turn.Genuine

theorem Traces.error (error : SessionError) : Traces session [] (.error error) :=
  ⟨⟨session, rfl, fun _ h => nomatch h⟩, List.forall_mem_nil _⟩

theorem Traces.nil : Traces session [] (.ok session) :=
  ⟨⟨session, rfl, fun _ h => Except.ok.inj h⟩, List.forall_mem_nil _⟩

theorem Traces.cons {turn : Turn} {turns : List Turn} {result : Except SessionError Session}
    (hturn : turn.Genuine) (h : Traces turn.after turns result) :
    Traces turn.before (turn :: turns) result := by
  obtain ⟨⟨last, hlinked, hlast⟩, hgenuine⟩ := h
  exact ⟨⟨last, ⟨rfl, hlinked⟩, hlast⟩, List.forall_mem_cons.2 ⟨hturn, hgenuine⟩⟩

theorem Traces.append {turns more : List Turn} {result : Except SessionError Session}
    (h : Traces session turns (.ok next)) (hmore : Traces next more result) :
    Traces session (turns ++ more) result := by
  obtain ⟨⟨middle, hlinked, hmiddle⟩, hgenuine⟩ := h
  obtain rfl := hmiddle next rfl
  obtain ⟨⟨last, hrest, hlast⟩, hgenuine'⟩ := hmore
  refine ⟨⟨last, hlinked.append hrest, hlast⟩, ?_⟩
  intro turn hmem
  rcases List.mem_append.1 hmem with hmem | hmem
  · exact hgenuine turn hmem
  · exact hgenuine' turn hmem

theorem drainTurns_eq (session : Session) :
    session.drainTurns = if session.dropNoise.inbox.length < Packet.frameSize then
        [⟨session, .settled, session.dropNoise⟩]
      else match session.dropNoise.takeFrame with
        | .error _ => []
        | .ok next => ⟨session, .took session.dropNoise.receive.1, next⟩
          :: if next.stage = .done then [] else next.drainTurns := by
  rw [drainTurns]
  split
  · rfl
  · split
    next heq => rw [heq]
    next heq => rw [heq]

theorem traces_drain (hstart : session.stage ≠ .start) :
    Traces session session.drainTurns session.drain := by
  induction session using drain.induct with
  | case1 session hshort =>
    rw [drainTurns_eq, if_pos hshort, drain_eq, if_pos hshort]
    exact .cons .settled .nil
  | case2 session hframe error herror =>
    rw [drainTurns_eq, if_neg hframe, drain_eq, if_neg hframe, herror]
    exact .error error
  | case3 session hframe next hnext hend =>
    rw [drainTurns_eq, if_neg hframe, drain_eq, if_neg hframe, hnext]
    refine .cons (.took hstart hframe hnext) ?_
    show Traces next (if _ then _ else _) (if _ then _ else _)
    rw [if_pos hend, if_pos hend]
    exact .nil
  | case4 session hframe next hnext hmore ih =>
    rw [drainTurns_eq, if_neg hframe, drain_eq, if_neg hframe, hnext]
    refine .cons (.took hstart hframe hnext) ?_
    show Traces next (if _ then _ else _) (if _ then _ else _)
    rw [if_neg hmore, if_neg hmore]
    exact ih ((takeFrame_keeps hframe hnext).2 hstart)

theorem traces_feed (session : Session) (incoming : Bytes) :
    Traces session (session.turns (.feed incoming)) (session.feed incoming) := by
  rw [turns, feed]
  split
  · exact .error _
  · dsimp only
    cases hstage : session.stage with
    | start =>
      rw [show (session.withInbox (session.inbox ++ incoming)).stage = .start from hstage]
      exact .cons (.announced incoming hstage) .nil
    | done =>
      rw [show (session.withInbox (session.inbox ++ incoming)).stage = .done from hstage]
      exact .error _
    | awaitingManifest =>
      rw [show (session.withInbox (session.inbox ++ incoming)).stage = .awaitingManifest
        from hstage]
      refine .cons (.received incoming) (traces_drain ?_)
      rw [show (session.hear incoming).stage = _ from hstage]
      simp
    | awaitingChunk index =>
      rw [show (session.withInbox (session.inbox ++ incoming)).stage = .awaitingChunk index
        from hstage]
      refine .cons (.received incoming) (traces_drain ?_)
      rw [show (session.hear incoming).stage = _ from hstage]
      simp

theorem traces_perform (session : Session) (call : Call) :
    Traces session (session.turns call) (session.perform call) := by
  cases call with
  | feed incoming => exact traces_feed session incoming
  | timeOut =>
    rw [turns, perform]
    cases hnext : session.timeOut with
    | error error => exact .error error
    | ok next => exact .cons (.timedOut hnext) .nil
  | collect => exact .cons .collected .nil

theorem traces_history (session : Session) (calls : List Call) :
    Traces session (session.history calls) (session.performAll calls) := by
  induction calls generalizing session with
  | nil => exact .nil
  | cons call calls ih =>
    have hcall := traces_perform session call
    rw [history, performAll, List.foldlM_cons]
    cases hnext : session.perform call with
    | error error =>
      rw [hnext] at hcall
      rw [List.append_nil]
      obtain ⟨⟨last, hlinked, -⟩, hgenuine⟩ := hcall
      exact ⟨⟨last, hlinked, fun _ h => nomatch h⟩, hgenuine⟩
    | ok next =>
      rw [hnext] at hcall
      exact hcall.append (ih next)

/-! ## What has been sent, and how often -/

/-- Whether a receipt reports a passing fault with the outstanding datagram. -/
def reportsPassing (session : Session) (receipt : Receipt) : Bool :=
  match acknowledgement? receipt with
  | .ok (some ack) =>
    session.outstanding? == some (ack.kind, ack.id) && !ack.accepted && isPassing ack.fault?
  | _ => false

namespace Turn

/-- Whether the session goes to another stage. -/
def moves (turn : Turn) : Bool :=
  turn.after.stage != turn.before.stage

/-- Whether the outstanding datagram is to be sent again: time has run out on it, or the node has
reported a passing fault with it. -/
def resends (turn : Turn) : Bool :=
  match turn.event with
  | .timedOut => turn.before.outstanding?.isSome
  | .took receipt => turn.before.reportsPassing receipt
  | _ => false

end Turn

/-- How often the outstanding datagram has been sent again: since the session has come to it. -/
def resent (turns : List Turn) : Nat :=
  turns.foldl (fun count turn =>
    if turn.moves then 0 else if turn.resends then count + 1 else count) 0

/-- Whether the outstanding datagram is still to be collected: since it was sent first or again. -/
def pending (turns : List Turn) : Bool :=
  turns.foldl (fun pending turn => turn.moves || turn.resends || match turn.event with
    | .collected _ => false
    | _ => pending) false

theorem resent_snoc (turns : List Turn) (turn : Turn) : resent (turns ++ [turn])
    = if turn.moves then 0 else if turn.resends then resent turns + 1 else resent turns := by
  rw [resent, List.foldl_append]
  rfl

theorem pending_snoc (turns : List Turn) (turn : Turn) : pending (turns ++ [turn])
    = (turn.moves || turn.resends || match turn.event with
      | .collected _ => false
      | _ => pending turns) := by
  rw [pending, List.foldl_append]
  rfl

/-! ## What a session makes of an acknowledgement -/

theorem not_isPassing {fault? : Option Fault} (h : session.isRepeatRefusal fault? = true) :
    isPassing fault? = false := by
  rw [isRepeatRefusal] at h
  split at h
  · rw [beq_iff_eq.1 h]
    rfl
  · rcases Bool.or_eq_true _ _ ▸ h with h | h <;> rw [beq_iff_eq.1 h] <;> rfl
  · cases h
  · cases h

/-- An acknowledgement that does not name the outstanding datagram means nothing. -/
theorem outstanding?_of_judge {ack : Acknowledgement} (h : session.judge ack ≠ .stale) :
    session.outstanding? = some (ack.kind, ack.id) := by
  rw [judge] at h
  cases hout : session.outstanding? with
  | none =>
    rw [hout] at h
    exact absurd rfl h
  | some named =>
    obtain ⟨kind, id⟩ := named
    rw [hout] at h
    dsimp only at h
    by_cases hother : ack.kind ≠ kind ∨ ack.id ≠ id
    · rw [if_pos hother] at h
      exact absurd rfl h
    · obtain ⟨hkind, hid⟩ := not_or.1 hother
      rw [not_not.1 hkind, not_not.1 hid]

/-- What one that names it means. -/
theorem judge_of_outstanding? {ack : Acknowledgement}
    (h : session.outstanding? = some (ack.kind, ack.id)) :
    session.judge ack = if ack.accepted then .accepted
      else if session.retries > 0 ∧ session.isRepeatRefusal ack.fault? then .alreadyApplied
      else if isPassing ack.fault? then .tryAgain
      else .rejected ack.kind ack.code := by
  rw [judge, h]
  exact if_neg fun hother => hother.elim (fun hkind => hkind rfl) fun hid => hid rfl

/-- The datagram is sent again exactly for a passing fault with it. -/
theorem reportsPassing_iff {receipt : Receipt} {ack : Acknowledgement}
    (hack : acknowledgement? receipt = .ok (some ack)) :
    session.reportsPassing receipt = true ↔ session.judge ack = .tryAgain := by
  have hreports : session.reportsPassing receipt
      = (session.outstanding? == some (ack.kind, ack.id) && !ack.accepted
        && isPassing ack.fault?) := by
    rw [reportsPassing, hack]
  rw [hreports, Bool.and_eq_true, Bool.and_eq_true, beq_iff_eq, Bool.not_eq_true']
  constructor
  · rintro ⟨⟨hnamed, hrefused⟩, hpassing⟩
    -- A passing fault is not how a node refuses another copy.
    have hfirst : ¬(session.retries > 0 ∧ session.isRepeatRefusal ack.fault? = true) := fun h =>
      absurd (not_isPassing h.2) (by rw [hpassing]; exact nofun)
    rw [judge_of_outstanding? hnamed, hrefused, if_neg Bool.false_ne_true, if_neg hfirst,
      if_pos hpassing]
  · intro hjudge
    have hnamed := outstanding?_of_judge (by rw [hjudge]; exact nofun)
    rw [judge_of_outstanding? hnamed] at hjudge
    refine ⟨⟨hnamed, ?_⟩, ?_⟩
    · cases haccepted : ack.accepted with
      | false => rfl
      | true =>
        rw [haccepted, if_pos rfl] at hjudge
        cases hjudge
    · by_contra hpassing
      rw [if_neg hpassing] at hjudge
      split at hjudge
      · cases hjudge
      · split at hjudge <;> cases hjudge

/-- What an acknowledgement that moves a session on says. -/
theorem judge_moving {ack : Acknowledgement}
    (h : session.judge ack = .accepted ∨ session.judge ack = .alreadyApplied) :
    session.outstanding? = some (ack.kind, ack.id)
      ∧ (ack.accepted = true ∨ ack.accepted = false ∧ 0 < session.retries.toNat
        ∧ session.isRepeatRefusal ack.fault? = true) := by
  have hnamed : session.outstanding? = some (ack.kind, ack.id) :=
    outstanding?_of_judge (by rcases h with h | h <;> rw [h] <;> exact nofun)
  refine ⟨hnamed, ?_⟩
  rw [judge_of_outstanding? hnamed] at h
  cases haccepted : ack.accepted with
  | true => exact .inl rfl
  | false =>
    rw [haccepted, if_neg Bool.false_ne_true] at h
    by_cases hrepeat : session.retries > 0 ∧ session.isRepeatRefusal ack.fault? = true
    · exact .inr ⟨rfl, UInt8.lt_iff_toNat_lt.1 hrepeat.1, hrepeat.2⟩
    · rw [if_neg hrepeat] at h
      split at h <;> rcases h with h | h <;> cases h

theorem acknowledgement?_eq_some {receipt : Receipt} {ack : Acknowledgement}
    (h : acknowledgement? receipt = .ok (some ack)) :
    ∃ packet datagram, receipt = .delivered packet datagram ∧ datagram.kind = .acknowledgement
      ∧ Acknowledgement.decode datagram.data = .ok ack := by
  cases receipt with
  | delivered packet datagram =>
    refine ⟨packet, datagram, rfl, ?_⟩
    rw [acknowledgement?] at h
    split at h
    next hkind hdecode =>
      cases h
      exact ⟨hkind, hdecode⟩
    next => cases h
  | _ => cases h

/-! ## The course -/

/-- A session that began as `plan` is at datagram `k`, whatever it has received. -/
def Reached (plan session : Session) (k : Nat) : Prop :=
  plan.Awaits (session.withInbox []) k

theorem stageAt_succ_ne (hk : k ≤ plan.chunkCount) : plan.stageAt (k + 1) ≠ plan.stageAt k := by
  cases k with
  | zero =>
    rw [stageAt, stageAt]
    split <;> simp
  | succ index =>
    rw [stageAt, stageAt, if_pos (show index < plan.chunkCount from hk)]
    split
    · intro heq
      exact Nat.succ_ne_self index (SessionStage.awaitingChunk.inj heq)
    · simp

theorem stageAt_ne_start (k : Nat) : plan.stageAt k ≠ .start := by
  cases k with
  | zero => simp [stageAt]
  | succ index =>
    rw [stageAt]
    split <;> simp

theorem Reached.advance (h : plan.Reached session k) (hk : k ≤ plan.chunkCount)
    (hpos : 0 < plan.chunkCount) :
    plan.Reached session.advance (k + 1) ∧ session.advance.due = true
      ∧ session.advance.retries = 0 := by
  have hnext := Awaits.advance h hk hpos
  rwa [advance_withInbox] at hnext

theorem Reached.congr (h : plan.Reached session k) (hfirmware : next.firmware = session.firmware)
    (hoptions : next.options = session.options) (hstage : next.stage = session.stage)
    (houtgoing : next.outgoing = session.outgoing) : plan.Reached next k :=
  ⟨hfirmware.trans h.firmware_eq, hoptions.trans h.options_eq, rfl, hstage.trans h.stage_eq,
    houtgoing.trans h.outgoing_eq⟩

/-- The first call brings a session to its announcement. -/
theorem announced_reached (hfirmware : session.firmware = plan.firmware)
    (hoptions : session.options = plan.options) (incoming : Bytes) :
    plan.Reached { (session.hear incoming).queue session.manifestDatagram with
      stage := .awaitingManifest } 0 := by
  have hdatagram : session.manifestDatagram = plan.datagramAt 0 := by
    rw [datagramAt, manifestDatagram, manifest, hfirmware, hoptions]
    rfl
  exact ⟨hfirmware, hoptions, rfl, rfl, by rw [← hdatagram]; rfl⟩

/-- Something is outstanding as long as there is a datagram to come. -/
theorem Reached.outstanding?_eq (h : plan.Reached session k) (hk : k ≤ plan.chunkCount + 1) :
    session.outstanding? = if k ≤ plan.chunkCount
      then some ((plan.datagramAt k).kind, (plan.datagramAt k).id) else none := by
  by_cases hle : k ≤ plan.chunkCount
  · rw [if_pos hle]
    exact show (session.withInbox []).outstanding? = _ from Awaits.outstanding?_eq h hle
  · obtain rfl : k = plan.chunkCount + 1 := by omega
    have hstage : session.stage = .done := h.stage_eq.trans (if_neg (Nat.lt_irrefl _))
    rw [if_neg hle, outstanding?, hstage]

/-- What a session that began as `plan` has come to in the turns `earlier`. -/
structure Course (plan : Session) (earlier : List Turn) (session : Session) : Prop where
  firmware_eq : session.firmware = plan.firmware
  options_eq : session.options = plan.options
  retries_eq : session.retries.toNat = resent earlier
  retries_le : session.retries.toNat ≤ plan.options.maxRetries.toNat
  due_eq : session.due = pending earlier
  place : session.stage = .start ∧ session.retries = 0
    ∨ ∃ k ≤ plan.chunkCount + 1, plan.Reached session k

/-- What a session has been told with the datagram that moves it on from datagram `k`, which has
been sent again `again` times: that it is accepted, or that another copy of it is refused. -/
structure Tells (plan : Session) (k again : Nat) (packet : Packet) (answer : Datagram)
    (ack : Acknowledgement) : Prop where
  packet_crc : packet.payloadCrc = packet.crc
  crc : Crc32.padded answer.data = answer.header.crc
  kind_eq : answer.kind = .acknowledgement
  decode_eq : Acknowledgement.decode answer.data = .ok ack
  names_kind : ack.kind = (plan.datagramAt k).kind
  names_id : ack.id = (plan.datagramAt k).id
  taken : ack.accepted = true ∨ ack.accepted = false ∧ 0 < again
    ∧ ∃ fault, ack.fault? = some fault ∧ RefusesCopy k fault

/-- What holds of a turn that comes after `earlier` in the course of a session that began as
`plan`. -/
structure Turn.Lawful (plan : Session) (earlier : List Turn) (turn : Turn) : Prop where
  /-- From the start to the announcement, and from there one by one. -/
  moves : turn.after.stage = turn.before.stage
    ∨ turn.before.stage = .start ∧ turn.event = .announced ∧ turn.after.stage = plan.stageAt 0
    ∨ ∃ k ≤ plan.chunkCount, turn.before.stage = plan.stageAt k
      ∧ turn.after.stage = plan.stageAt (k + 1) ∧ turn.after.endpoint.assembly = none
      ∧ ∃ packet answer ack, turn.event = .took (.delivered packet answer)
        ∧ plan.Tells k (resent earlier) packet answer ack
  /-- Past the start there is always a datagram to be sent. -/
  sends : turn.after.stage ≠ .start → ∃ k ≤ plan.chunkCount + 1,
    turn.after.stage = plan.stageAt k ∧ turn.after.outgoing = (plan.datagramAt k).frames.flatten
      ∧ turn.after.progress = (k - 1, plan.chunkCount)
  /-- It is sent again only so many times. -/
  limited : resent (earlier ++ [turn]) ≤ plan.options.maxRetries.toNat
  /-- It is handed out once each time. -/
  collects : ∀ bytes?, turn.event = .collected bytes? →
    bytes? = if pending earlier then some turn.after.outgoing else none

variable {earlier : List Turn} {turn : Turn}

/-- A turn that keeps to the course is lawful if its own move is. -/
theorem Course.lawful (h : plan.Course (earlier ++ [turn]) turn.after)
    (hmoves : turn.after.stage = turn.before.stage
      ∨ turn.before.stage = .start ∧ turn.event = .announced ∧ turn.after.stage = plan.stageAt 0
      ∨ ∃ k ≤ plan.chunkCount, turn.before.stage = plan.stageAt k
        ∧ turn.after.stage = plan.stageAt (k + 1) ∧ turn.after.endpoint.assembly = none
        ∧ ∃ packet answer ack, turn.event = .took (.delivered packet answer)
          ∧ plan.Tells k (resent earlier) packet answer ack)
    (hcollects : ∀ bytes?, turn.event = .collected bytes? →
      bytes? = if pending earlier then some turn.after.outgoing else none) :
    turn.Lawful plan earlier where
  moves := hmoves
  sends := by
    intro hstart
    obtain ⟨hstage, -⟩ | ⟨k, hk, hreached⟩ := h.place
    · exact absurd hstage hstart
    · have hprogress : (turn.after.withInbox []).progress = _ := Awaits.progress_eq hreached hk
      exact ⟨k, hk, hreached.stage_eq, hreached.outgoing_eq, hprogress⟩
  limited := by
    rw [← h.retries_eq]
    exact h.retries_le
  collects := hcollects

/-- A turn that changes nothing but what is received. -/
theorem Course.still (h : plan.Course earlier turn.before)
    (hafter : turn.after = { turn.before with endpoint := turn.after.endpoint })
    (hresends : turn.resends = false) (hevent : ∀ bytes?, turn.event ≠ .collected bytes?) :
    plan.Course (earlier ++ [turn]) turn.after ∧ turn.Lawful plan earlier := by
  have hstage : turn.after.stage = turn.before.stage := by rw [hafter]
  have hmoves : turn.moves = false := by
    rw [Turn.moves, hstage, bne_self_eq_false]
  have hresent : resent (earlier ++ [turn]) = resent earlier := by
    rw [resent_snoc, hmoves, hresends]
    rfl
  have hpending : pending (earlier ++ [turn]) = pending earlier := by
    rw [pending_snoc, hmoves, hresends, Bool.false_or, Bool.false_or]
    split
    next heq => exact absurd heq (hevent _)
    next => rfl
  have hcourse : plan.Course (earlier ++ [turn]) turn.after := by
    rw [hafter]
    refine ⟨h.firmware_eq, h.options_eq, ?_, h.retries_le, ?_, ?_⟩
    · rw [hresent]
      exact h.retries_eq
    · rw [hpending]
      exact h.due_eq
    · exact h.place.imp id fun ⟨k, hk, hreached⟩ => ⟨k, hk, hreached.congr rfl rfl rfl rfl⟩
  exact ⟨hcourse, hcourse.lawful (.inl hstage) fun bytes? heq => absurd heq (hevent bytes?)⟩

/-- A turn that has the outstanding datagram sent again. -/
theorem Course.again (h : plan.Course earlier turn.before) {mid : Session}
    (hmid : mid = { turn.before with endpoint := mid.endpoint })
    (hafter : mid.retransmit = .ok turn.after) (hresends : turn.resends = true)
    (hstart : turn.before.stage ≠ .start) (hevent : ∀ bytes?, turn.event ≠ .collected bytes?) :
    plan.Course (earlier ++ [turn]) turn.after ∧ turn.Lawful plan earlier := by
  obtain ⟨hafter, hallowed⟩ := retransmit_eq_ok hafter
  have hsame : turn.after = { turn.before with
      endpoint := mid.endpoint, retries := turn.before.retries + 1, due := true } := by
    rw [hafter, hmid]
  have hstage : turn.after.stage = turn.before.stage := by rw [hsame]
  have hmoves : turn.moves = false := by
    rw [Turn.moves, hstage, bne_self_eq_false]
  rw [hmid] at hallowed
  have hsum : (turn.before.retries + 1).toNat = turn.before.retries.toNat + 1 :=
    toNat_retries_add_one hallowed
  have hcourse : plan.Course (earlier ++ [turn]) turn.after := by
    rw [hsame]
    refine ⟨h.firmware_eq, h.options_eq, ?_, ?_, ?_, ?_⟩
    · rw [resent_snoc, hmoves, hresends]
      show (turn.before.retries + 1).toNat = resent earlier + 1
      rw [hsum, h.retries_eq]
    · rw [← h.options_eq]
      show (turn.before.retries + 1).toNat ≤ _
      rw [hsum]
      exact hallowed
    · rw [pending_snoc, hresends, Bool.or_true]
      rfl
    · obtain ⟨hplace, -⟩ | ⟨k, hk, hreached⟩ := h.place
      · exact absurd hplace hstart
      · exact .inr ⟨k, hk, hreached.congr rfl rfl rfl rfl⟩
  exact ⟨hcourse, hcourse.lawful (.inl hstage) fun bytes? heq => absurd heq (hevent bytes?)⟩

/-- A turn that brings the session to datagram `k`, due and not sent again yet. -/
theorem Course.moved (hreached : plan.Reached turn.after k) (hk : k ≤ plan.chunkCount + 1)
    (hmoves : turn.moves = true) (hdue : turn.after.due = true)
    (hretries : turn.after.retries = 0) :
    plan.Course (earlier ++ [turn]) turn.after where
  firmware_eq := hreached.firmware_eq
  options_eq := hreached.options_eq
  retries_eq := by
    rw [resent_snoc, hmoves, hretries]
    rfl
  retries_le := by
    rw [hretries]
    exact Nat.zero_le _
  due_eq := by
    rw [pending_snoc, hmoves, hdue]
    rfl
  place := .inr ⟨k, hk, hreached⟩

/-- The first call has the image announced. -/
theorem Course.announced (incoming : Bytes) (h : plan.Course earlier session)
    (hstart : session.stage = .start) :
    let turn : Turn := ⟨session, .announced, { (session.hear incoming).queue
      session.manifestDatagram with stage := .awaitingManifest }⟩
    plan.Course (earlier ++ [turn]) turn.after ∧ turn.Lawful plan earlier := by
  intro turn
  have hretries : session.retries = 0 := by
    obtain ⟨-, hretries⟩ | ⟨k, -, hreached⟩ := h.place
    · exact hretries
    · have hstage : session.stage = plan.stageAt k := hreached.stage_eq
      exact absurd (hstage.symm.trans hstart) (stageAt_ne_start k)
  have hreached : plan.Reached turn.after 0 :=
    announced_reached h.firmware_eq h.options_eq incoming
  have hmoves : turn.moves = true := by
    rw [Turn.moves, show turn.before.stage = .start from hstart]
    rfl
  have hcourse : plan.Course (earlier ++ [turn]) turn.after :=
    .moved hreached (Nat.zero_le _) hmoves rfl hretries
  exact ⟨hcourse, hcourse.lawful (.inr (.inl ⟨hstart, rfl, rfl⟩)) nofun⟩

/-- Collecting hands out what is due, once. -/
theorem Course.collected (h : plan.Course earlier session) :
    let turn : Turn := ⟨session, .collected session.collect.1, session.collect.2⟩
    plan.Course (earlier ++ [turn]) turn.after ∧ turn.Lawful plan earlier := by
  intro turn
  have hcollect : session.collect
      = (if session.due then some session.outgoing else none, { session with due := false }) := by
    rw [collect]
    cases hdue : session.due with
    | true => rfl
    | false =>
      show (none, session) = (none, { session with due := false })
      rw [← hdue]
  have hafter : turn.after = { session with due := false } := congrArg Prod.snd hcollect
  have hbytes : session.collect.1 = if session.due then some session.outgoing else none :=
    congrArg Prod.fst hcollect
  have hstage : turn.after.stage = turn.before.stage := by
    rw [hafter]
  have hmoves : turn.moves = false := by
    rw [Turn.moves, hstage, bne_self_eq_false]
  have hcourse : plan.Course (earlier ++ [turn]) turn.after := by
    rw [hafter]
    refine ⟨h.firmware_eq, h.options_eq, ?_, h.retries_le, ?_, ?_⟩
    · rw [resent_snoc, hmoves]
      exact h.retries_eq
    · rw [pending_snoc, hmoves]
      rfl
    · exact h.place.imp id fun ⟨k, hk, hreached⟩ => ⟨k, hk, hreached.congr rfl rfl rfl rfl⟩
  refine ⟨hcourse, hcourse.lawful (.inl hstage) ?_⟩
  rintro bytes? ⟨rfl⟩
  rw [hbytes, ← h.due_eq, hafter]

/-- When time runs out, the outstanding datagram is sent again if there is one. -/
theorem Course.timedOut (h : plan.Course earlier session) (hnext : session.timeOut = .ok next) :
    let turn : Turn := ⟨session, .timedOut, next⟩
    plan.Course (earlier ++ [turn]) turn.after ∧ turn.Lawful plan earlier := by
  intro turn
  cases hstage : session.stage with
  | start =>
    rw [timeOut, hstage] at hnext
    obtain rfl : session = next := Except.ok.inj hnext
    refine h.still rfl ?_ (by simp [turn])
    show session.outstanding?.isSome = false
    rw [outstanding?, hstage]
    rfl
  | done =>
    rw [timeOut, hstage] at hnext
    obtain rfl : session = next := Except.ok.inj hnext
    refine h.still rfl ?_ (by simp [turn])
    show session.outstanding?.isSome = false
    rw [outstanding?, hstage]
    rfl
  | awaitingManifest =>
    have hstart : session.stage ≠ .start := by simp [hstage]
    rw [timeOut_waiting hstart (by simp [hstage])] at hnext
    refine h.again rfl hnext ?_ hstart (by simp [turn])
    show session.outstanding?.isSome = true
    rw [outstanding?, hstage]
    rfl
  | awaitingChunk index =>
    have hstart : session.stage ≠ .start := by simp [hstage]
    rw [timeOut_waiting hstart (by simp [hstage])] at hnext
    refine h.again rfl hnext ?_ hstart (by simp [turn])
    show session.outstanding?.isSome = true
    rw [outstanding?, hstage]
    rfl

/-- Of an acknowledgement that moves a session on, what it says of the datagram it names. -/
theorem Reached.told (h : plan.Reached session k) (hk : k ≤ plan.chunkCount + 1)
    {ack : Acknowledgement}
    (hjudge : session.judge ack = .accepted ∨ session.judge ack = .alreadyApplied) :
    k ≤ plan.chunkCount ∧ ack.kind = (plan.datagramAt k).kind ∧ ack.id = (plan.datagramAt k).id
      ∧ (ack.accepted = true ∨ ack.accepted = false ∧ 0 < session.retries.toNat
        ∧ ∃ fault, ack.fault? = some fault ∧ RefusesCopy k fault) := by
  obtain ⟨hnamed, htaken⟩ := judge_moving hjudge
  rw [h.outstanding?_eq hk] at hnamed
  by_cases hle : k ≤ plan.chunkCount
  · rw [if_pos hle] at hnamed
    obtain ⟨hkind, hid⟩ := Prod.mk.inj (Option.some.inj hnamed)
    refine ⟨hle, hkind.symm, hid.symm, htaken.imp id ?_⟩
    rintro ⟨hrefused, hagain, hrepeat⟩
    refine ⟨hrefused, hagain, ?_⟩
    cases hfault : ack.fault? with
    | none =>
      rw [hfault, isRepeatRefusal] at hrepeat
      split at hrepeat <;> cases hrepeat
    | some fault =>
      rw [hfault] at hrepeat
      exact ⟨fault, rfl, (Awaits.isRepeatRefusal_iff h hle).1 hrepeat⟩
  · rw [if_neg hle] at hnamed
    cases hnamed

/-- A frame that is taken leads on only with a verified answer. -/
theorem Course.took (hpos : 0 < plan.chunkCount) (h : plan.Course earlier session)
    (hstart : session.stage ≠ .start)
    (hframe : ¬session.dropNoise.inbox.length < Packet.frameSize)
    (hnext : session.dropNoise.takeFrame = .ok next) :
    let turn : Turn := ⟨session, .took session.dropNoise.receive.1, next⟩
    plan.Course (earlier ++ [turn]) turn.after ∧ turn.Lawful plan earlier := by
  intro turn
  obtain ⟨body, rest, hbody, hinbox⟩ := dropNoise_marked hframe
  have hreceipt : session.dropNoise.receive.1
      = (session.endpoint.assembly.take (Packet.startMarker :: body)).1 := by
    rw [receive, Endpoint.receive_marked hbody hinbox]
    rfl
  rw [takeFrame_marked hbody hinbox] at hnext
  -- What the frame is acted on by differs from the session only in what is received.
  obtain ⟨mid, hmid, hsame, hassembly⟩ : ∃ mid : Session,
      mid.actOn session.dropNoise.receive.1 = .ok next
      ∧ mid = { session with endpoint := mid.endpoint }
      ∧ mid.endpoint.assembly
        = (session.endpoint.assembly.take (Packet.startMarker :: body)).2 :=
    ⟨_, by rw [hreceipt]; exact hnext, rfl, rfl⟩
  rcases actOn_cases hmid with ⟨rfl, hstale⟩ | ⟨ack, hack, ⟨hjudge, rfl⟩ | ⟨hjudge, hagain⟩⟩
  · refine h.still hsame ?_ (by simp [turn])
    -- No acknowledgement, or one of another datagram: nothing is sent again.
    show session.reportsPassing _ = false
    rw [← Bool.not_eq_true]
    intro hpassing
    cases hack : acknowledgement? session.dropNoise.receive.1 with
    | error error =>
      rw [reportsPassing, hack] at hpassing
      cases hpassing
    | ok ack? =>
      cases ack? with
      | none =>
        rw [reportsPassing, hack] at hpassing
        cases hpassing
      | some ack =>
        have hjudge := hstale ack hack
        rw [hsame] at hjudge
        exact Verdict.noConfusion (((reportsPassing_iff hack).1 hpassing).symm.trans hjudge)
  · obtain ⟨hplace, -⟩ | ⟨k, hk, hreached⟩ := h.place
    · exact absurd hplace hstart
    have hmid : plan.Reached mid k := by
      rw [hsame]
      exact hreached.congr rfl rfl rfl rfl
    obtain ⟨hle, hkind, hid, htaken⟩ := hmid.told hk hjudge
    obtain ⟨hnext, hdue, hretries⟩ := hmid.advance hle hpos
    have hbefore : session.stage = plan.stageAt k := hreached.stage_eq
    have hafter : mid.advance.stage = plan.stageAt (k + 1) := hnext.stage_eq
    have hmoves : turn.moves = true := by
      rw [Turn.moves, bne_iff_ne]
      show mid.advance.stage ≠ session.stage
      rw [hafter, hbefore]
      exact stageAt_succ_ne hle
    have hcourse : plan.Course (earlier ++ [turn]) turn.after :=
      .moved hnext (Nat.succ_le_succ hle) hmoves hdue hretries
    -- The answer has come whole and verified, and nothing else is under way.
    obtain ⟨packet, answer, hdelivered, hanswer, hdecode⟩ := acknowledgement?_eq_some hack
    obtain ⟨hpacket, hcrc, hnone⟩ := Assembly.take_delivered (hreceipt.symm.trans hdelivered)
    have hempty : mid.advance.endpoint.assembly = none := by
      rw [endpoint_advance, hassembly, hnone]
    have hagain : mid.retries.toNat = resent earlier := by
      rw [hsame]
      exact h.retries_eq
    rw [hagain] at htaken
    exact ⟨hcourse, hcourse.lawful (.inr (.inr ⟨k, hle, hbefore, hafter, hempty, packet, answer,
      ack, congrArg Event.took hdelivered, ⟨hpacket, hcrc, hanswer, hdecode, hkind, hid, htaken⟩⟩))
      (by simp [turn])⟩
  · refine h.again hsame hagain ?_ hstart (by simp [turn])
    show session.reportsPassing _ = true
    rw [reportsPassing_iff hack]
    rw [hsame] at hjudge
    exact hjudge

/-- Each turn keeps to the course. -/
theorem Course.step (hpos : 0 < plan.chunkCount) (h : plan.Course earlier turn.before)
    (hturn : turn.Genuine) :
    plan.Course (earlier ++ [turn]) turn.after ∧ turn.Lawful plan earlier := by
  cases hturn with
  | announced incoming hstart => exact h.announced incoming hstart
  | received incoming => exact h.still rfl rfl nofun
  | took hstart hframe hnext => exact h.took hpos hstart hframe hnext
  | settled => exact h.still rfl rfl nofun
  | timedOut hnext => exact h.timedOut hnext
  | collected => exact h.collected

/-- Turns that keep to the course are lawful, each behind those before it. -/
theorem Course.lawful_of_linked (hpos : 0 < plan.chunkCount) {turns : List Turn}
    (h : plan.Course earlier session) (hlinked : Linked session turns last)
    (hgenuine : ∀ turn ∈ turns, turn.Genuine)
    {front back : List Turn} (hsplit : turns = front ++ turn :: back) :
    turn.Lawful plan (earlier ++ front) := by
  induction turns generalizing earlier session front with
  | nil => exact absurd hsplit.symm (List.append_ne_nil_of_right_ne_nil _ (List.cons_ne_nil _ _))
  | cons head turns ih =>
    obtain ⟨rfl, hlinked⟩ := hlinked
    obtain ⟨hhead, hgenuine⟩ := List.forall_mem_cons.1 hgenuine
    obtain ⟨hcourse, hlawful⟩ := h.step hpos hhead
    cases front with
    | nil =>
      obtain ⟨rfl, -⟩ := List.cons.inj hsplit
      rwa [List.append_nil]
    | cons first front =>
      obtain ⟨rfl, htail⟩ := List.cons.inj hsplit
      have hrest := ih hcourse hlinked hgenuine htail
      rwa [List.append_assoc] at hrest

/-! ## What the datagrams say -/

/-- What datagram `k` of the update to an image says: the announcement, a chunk, or the request to
jump. -/
def Says (firmware : Bytes) (options : SessionOptions) (datagram : Datagram) : Nat → Prop
  | 0 => datagram.kind = .firmwareMetadata ∧ datagram.id = 0xFFFF0000
    ∧ Manifest.decode datagram.data = .ok
      { size := .ofNat firmware.length, crc := Crc32.ofImage firmware, major := options.version.1,
        minor := options.version.2, id := options.id }
  | index + 1 =>
    if index * options.chunkSize < firmware.length then
      datagram.kind = .firmwareChunk ∧ datagram.id.toNat = index
        ∧ datagram.data
          = (firmware.take (min ((index + 1) * options.chunkSize) firmware.length)).drop
            (index * options.chunkSize)
    else datagram.kind = .jumpToApp ∧ datagram.id = 0xFFFF0001
      ∧ JumpRequest.decode datagram.data = .ok {}

theorem says_datagramAt (h : plan.Feasible) (k : Nat) :
    Says plan.firmware plan.options (plan.datagramAt k) k := by
  cases k with
  | zero =>
    obtain ⟨hkind, hdecode⟩ := manifestDatagram_announces plan
    exact ⟨hkind, rfl, hdecode⟩
  | succ index =>
    have hiff : index * plan.options.chunkSize < plan.firmware.length
        ↔ index < plan.chunkCount := by
      have hsize := h.valid.1
      rw [chunkCount, Nat.lt_div_iff_mul_lt hsize]
      omega
    rw [Says, datagramAt]
    by_cases hindex : index < plan.chunkCount
    · rw [if_pos hindex, if_pos (hiff.2 hindex)]
      refine ⟨rfl, id_chunkDatagram h hindex, ?_⟩
      rw [data_chunkDatagram h, chunk, List.take_drop, Nat.succ_mul, ← List.take_eq_take_min]
    · rw [if_neg hindex, if_neg (mt hiff.1 hindex)]
      exact ⟨rfl, rfl, decode_jumpDatagram plan⟩

/-! ## Any run -/

/-- A session for an image that can be sent begins its course. -/
theorem new_course (capacity : Nat) {firmware : Bytes} {options : SessionOptions}
    (hvalid : options.Valid) (hpos : 0 < firmware.length) (hlt : firmware.length < 0x100000000) :
    ∃ plan : Session, new capacity firmware options = .ok plan ∧ plan.firmware = firmware
      ∧ plan.options = options ∧ plan.Feasible ∧ plan.Course [] plan := by
  have hne : ¬firmware.isEmpty = true := by
    rw [List.isEmpty_iff_length_eq_zero]
    omega
  refine ⟨{ firmware, options, endpoint := { link := { capacity } } }, ?_, rfl, rfl,
    ⟨hvalid, hpos, hlt⟩, rfl, rfl, rfl, Nat.zero_le _, rfl, .inl ⟨rfl, rfl⟩⟩
  rw [new, if_neg (fun h => h hvalid), if_neg hne, if_neg (Nat.not_le.2 hlt)]

/-- Whatever a program does with a session and whatever bytes come in, the right datagrams are sent
in the right order. The turns of its calls follow each other up to the session they leave, and every
one of them is lawful: the session goes from stage to stage in order and only on a verified
acknowledgement of the outstanding datagram, has exactly the frames of that datagram to send, hands
them out once each time, and sends them again only so many times. The limit may be any, the largest
too: one repeat more than the counter can hold is an error and no turn. -/
theorem keeps_course (capacity : Nat) {firmware : Bytes} {options : SessionOptions}
    (hvalid : options.Valid) (hpos : 0 < firmware.length) (hlt : firmware.length < 0x100000000) :
    ∃ plan, new capacity firmware options = .ok plan
      ∧ plan.chunkCount = firmware.length ⌈/⌉ options.chunkSize
      ∧ (∀ k, Says firmware options (plan.datagramAt k) k
        ∧ (plan.datagramAt k).header.target = options.target)
      ∧ ∀ calls,
        (∀ session, plan.performAll calls = .ok session →
          Linked plan (plan.history calls) session)
        ∧ ∀ earlier turn later, plan.history calls = earlier ++ turn :: later →
          turn.Lawful plan earlier := by
  obtain ⟨plan, hnew, rfl, rfl, hfeasible, hcourse⟩ := new_course capacity hvalid hpos hlt
  refine ⟨plan, hnew, ?_, fun k => ⟨says_datagramAt hfeasible k, target_datagramAt hfeasible k⟩, ?_⟩
  · rw [Nat.ceilDiv_eq_add_pred_div]
    rfl
  · intro calls
    obtain ⟨⟨last, hlinked, hlast⟩, hgenuine⟩ := traces_history plan calls
    constructor
    · intro session hsession
      rwa [← hlast session hsession]
    · intro earlier turn later hsplit
      exact hcourse.lawful_of_linked (chunkCount_pos hfeasible) hlinked hgenuine hsplit

/-- The update of a small image of two chunks. The answer to the first chunk is lost, and the node
refuses the copy of that chunk because it is past it. -/
def smallCalls : List Call :=
  [.feed [], .collect, .feed (announced.manifestDatagram.answer (.ok ())).frames.flatten, .collect,
    .timeOut, .collect,
    .feed ((announced.chunkDatagram 0).answer (.error .sequenceOutOfOrder)).frames.flatten,
    .collect,
    .feed ((announced.chunkDatagram 1).answer (.ok ())).frames.flatten, .collect]

theorem keeps_course_small :
    ∃ plan, new 300 announced.firmware announced.options = .ok plan
      ∧ (plan.history smallCalls).map (fun turn => (turn.after.stage, turn.after.due))
        = [(.awaitingManifest, true), (.awaitingManifest, false), (.awaitingManifest, false),
          (.awaitingManifest, false), (.awaitingChunk 0, true), (.awaitingChunk 0, true),
          (.awaitingChunk 0, false), (.awaitingChunk 0, true), (.awaitingChunk 0, false),
          (.awaitingChunk 0, false), (.awaitingChunk 0, false), (.awaitingChunk 1, true),
          (.awaitingChunk 1, true), (.awaitingChunk 1, false), (.awaitingChunk 1, false),
          (.awaitingChunk 1, false), (.done, true), (.done, false)]
      ∧ ∀ earlier turn later, plan.history smallCalls = earlier ++ turn :: later →
        turn.Lawful plan earlier := by
  obtain ⟨plan, hnew, -, -, hruns⟩ :=
    @keeps_course 300 announced.firmware announced.options (by decide) (by decide) (by decide)
  refine ⟨plan, hnew, ?_, (hruns smallCalls).2⟩
  obtain rfl : { announced with stage := .start, outgoing := [], due := false } = plan :=
    Except.ok.inj hnew
  decide +kernel

end Session

end Reflash
