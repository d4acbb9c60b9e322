/-
  Reflash.Proofs.TimeOut

  An acknowledgement that comes whole after a time out. The time out drops the bytes of
  a frame that has come in part, but not the datagram that has come in part. So the
  acknowledgement moves the session on if nothing of another datagram of its id has
  come. If the header of such a one has, the header of the acknowledgement is taken for
  it, and its data then fails the checksum of the other.
-/
import Reflash.Proofs.Course
import Reflash.Proofs.Intake
import Reflash.Proofs.Retransmission

namespace Reflash

/-! ## Two frames -/

namespace Assembly

variable {whole part : Datagram} {assembly : Assembly}

/-- Another datagram that goes by the id of `whole` is under way. -/
def Mistakes (whole : Datagram) (assembly : Assembly) : Prop :=
  ∃ part, assembly = some part ∧ part.header.id = whole.header.id ∧ part.header ≠ whole.header

/-- What is under way once the first data of `whole` is put into it. -/
def mixed (whole part : Datagram) : Datagram :=
  { part with slots := part.slots.set 0 (some ((whole.data.drop (0 * 128)).take 128)) }

/-- What is under way goes by the id of `whole`, and with the data of that fails its checksum. -/
def Spoils (whole : Datagram) (assembly : Assembly) : Prop :=
  ∃ part, assembly = some part ∧ part.header.id = whole.header.id
    ∧ Crc32.padded (mixed whole part).data ≠ part.header.crc

/-- Unless it is taken for another, a datagram of a single data packet is delivered. -/
theorem take_pair_clear (h : whole.Whole) (hone : whole.slots.length = 1)
    (hincomplete : assembly.isComplete = false) (hfitting : assembly.Fitting)
    (hclear : ¬Mistakes whole assembly) :
    ∃ part : Datagram,
      assembly.take (whole.packetAt 0).toFrame = (.accepted (whole.packetAt 0), some part)
      ∧ take (some part) (whole.packetAt 1).toFrame
        = (.delivered (whole.packetAt 1) whole, none) := by
  cases hheld : assembly.holds whole.header.id with
  | false =>
    -- The header displaces whatever is under way.
    have hempty := Datagram.awaiting_not_complete h
    exact ⟨_, take_packetAt (route?_header h.check_eq hheld) hempty,
      take_data_only h hone ⟨Datagram.awaiting_partOf h, hempty⟩⟩
  | true =>
    cases assembly with
    | none => cases hheld
    | some part =>
      have hid : part.header.id = whole.header.id := beq_iff_eq.1 hheld
      have hsame : part.header = whole.header :=
        Classical.byContradiction fun hne => hclear ⟨part, rfl, hid, hne⟩
      have hlength : part.slots.length = whole.slots.length := by
        rw [hfitting part rfl, hsame, h.packets_eq]
      -- The only slot is the one that is empty.
      obtain ⟨j, hj⟩ := incomplete_iff.1 hincomplete
      have hlt := (List.getElem?_eq_some_iff.1 hj).1
      have hpart : part.Fragment whole := by
        refine ⟨⟨hsame, hlength, fun i hi => .inl ?_⟩, hincomplete⟩
        rwa [show i = j from by omega]
      exact ⟨part, take_header_some hpart, take_data_only h hone hpart⟩

/-- Data that spoils what is under way delivers nothing. -/
theorem take_pair_spoils (hincomplete : assembly.isComplete = false)
    (hspoils : Spoils whole assembly) :
    assembly.take (whole.packetAt 0).toFrame = (.accepted (whole.packetAt 0), assembly)
      ∧ ¬(assembly.take (whole.packetAt 1).toFrame).1.Delivers := by
  obtain ⟨part, rfl, hid, hcrc⟩ := hspoils
  refine ⟨take_packetAt (route?_header_held (beq_iff_eq.2 hid)) hincomplete, ?_⟩
  by_cases hslot : part.slots[0]? = some none
  · have hroute : route? (some part) (whole.packetAt 1) = some (.ok (some (mixed whole part))) := by
      rw [route?_data whole (some part) 0, acceptData_dataPacket hid.symm (by decide), hslot]
      rfl
    cases hcomplete : isComplete (some (mixed whole part)) with
    | false =>
      rw [take_packetAt hroute hcomplete]
      exact id
    | true =>
      rw [take_packetAt_spoiled hroute hcomplete hcrc]
      exact id
  · rw [take_data_refused hid.symm (by decide) hslot]
    exact id

end Assembly

namespace Session

variable {plan session next resumed last : Session} {k : Nat}

/-! ## Any session -/

/-- What holds of a session that began as `plan`, whatever was done with it and whatever came. Other
than its course this does not tell how often a datagram was sent again, so the options are free. -/
structure Sound (plan session : Session) : Prop where
  firmware_eq : session.firmware = plan.firmware
  options_eq : session.options = plan.options
  capacity_eq : session.endpoint.link.capacity = plan.endpoint.link.capacity
  incomplete : session.endpoint.assembly.isComplete = false
  fitting : session.endpoint.assembly.Fitting
  place : session.stage = .start ∨ ∃ k ≤ plan.chunkCount + 1, plan.Reached session k

/-- A turn in which a session stays where it is changes what has come, how often the datagram has
been sent again, and whether it is due. -/
theorem Sound.still (h : plan.Sound session) (next : Session)
    (hnext : next = { session with
      endpoint := next.endpoint, due := next.due, retries := next.retries })
    (hcapacity : next.endpoint.link.capacity = session.endpoint.link.capacity)
    {receipt : Receipt}
    (hadvances : session.endpoint.assembly.Advances receipt next.endpoint.assembly) :
    plan.Sound next := by
  rw [hnext]
  refine ⟨h.firmware_eq, h.options_eq, hcapacity.trans h.capacity_eq,
    hadvances.incomplete h.incomplete, hadvances.fitting h.fitting, ?_⟩
  exact h.place.imp id fun ⟨k, hk, hreached⟩ => ⟨k, hk, hreached.congr rfl rfl rfl rfl⟩

theorem Sound.retransmit (h : plan.Sound session) (hnext : session.retransmit = .ok next) :
    plan.Sound next := by
  obtain ⟨rfl, -⟩ := retransmit_eq_ok hnext
  exact h.still _ rfl rfl (.silence _)

theorem Sound.advance (hpos : 0 < plan.chunkCount) (h : plan.Sound session)
    (hk : k ≤ plan.chunkCount) (hreached : plan.Reached session k) :
    plan.Sound session.advance := by
  obtain ⟨hnext, -, -⟩ := hreached.advance hk hpos
  have hendpoint := endpoint_advance session
  exact ⟨hnext.firmware_eq, hnext.options_eq, by rw [hendpoint, h.capacity_eq],
    by rw [hendpoint, h.incomplete], by rw [hendpoint]; exact h.fitting,
    .inr ⟨k + 1, Nat.succ_le_succ hk, hnext⟩⟩

/-- Whatever a receipt brings. -/
theorem Sound.actOn (hpos : 0 < plan.chunkCount) (h : plan.Sound session)
    (hstart : session.stage ≠ .start) {receipt : Receipt}
    (hnext : session.actOn receipt = .ok next) : plan.Sound next := by
  rcases actOn_cases hnext with ⟨rfl, -⟩ | ⟨ack, -, ⟨hjudge, rfl⟩ | ⟨-, hagain⟩⟩
  · exact h
  · obtain ⟨k, hk, hreached⟩ := h.place.resolve_left hstart
    obtain ⟨hle, -⟩ := hreached.told hk hjudge
    exact h.advance hpos hle hreached
  · exact h.retransmit hagain

theorem Sound.step (hpos : 0 < plan.chunkCount) {turn : Turn} (h : plan.Sound turn.before)
    (hturn : turn.Genuine) : plan.Sound turn.after := by
  cases hturn with
  | announced incoming hstart =>
    exact ⟨h.firmware_eq, h.options_eq, h.capacity_eq, h.incomplete, h.fitting,
      .inr ⟨0, Nat.zero_le _, announced_reached h.firmware_eq h.options_eq incoming⟩⟩
  | received incoming => exact h.still _ rfl rfl (.silence _)
  | @took session next hstart hframe hnext =>
    obtain ⟨body, rest, hbody, hinbox⟩ := dropNoise_marked hframe
    rw [takeFrame_marked hbody hinbox] at hnext
    -- The frame is off the inbox before it is acted on.
    have htaken := Assembly.take_advances session.endpoint.assembly (Packet.startMarker :: body)
    exact (h.still (session.behind rest _ _) rfl rfl htaken).actOn hpos hstart hnext
  | settled => exact h.still _ rfl rfl (.silence _)
  | @timedOut session next hnext =>
    cases hstage : session.stage with
    | start | done =>
      rw [timeOut, hstage] at hnext
      cases hnext
      exact h
    | awaitingManifest | awaitingChunk =>
      rw [timeOut_waiting (by simp [hstage]) (by simp [hstage])] at hnext
      have hemptied := h.still (session.withInbox []) rfl rfl (.silence _)
      exact hemptied.retransmit hnext
  | @collected session =>
    show plan.Sound session.collect.2
    rw [collect]
    split
    · exact h.still _ rfl rfl (.silence _)
    · exact h

theorem Sound.run (hpos : 0 < plan.chunkCount) {turns : List Turn} (h : plan.Sound session)
    (hlinked : Linked session turns last) (hgenuine : ∀ turn ∈ turns, turn.Genuine) :
    plan.Sound last := by
  induction turns generalizing session with
  | nil =>
    obtain rfl : session = last := hlinked
    exact h
  | cons turn turns ih =>
    obtain ⟨rfl, hlinked⟩ := hlinked
    obtain ⟨hturn, hgenuine⟩ := List.forall_mem_cons.1 hgenuine
    exact ih (h.step hpos hturn) hlinked hgenuine

theorem Sound.performAll (hpos : 0 < plan.chunkCount) (h : plan.Sound session) {calls : List Call}
    (hcalls : session.performAll calls = .ok last) : plan.Sound last := by
  obtain ⟨⟨reached, hlinked, hreached⟩, hgenuine⟩ := traces_history session calls
  obtain rfl := hreached last hcalls
  exact h.run hpos hlinked hgenuine

theorem new_sound {capacity : Nat} {firmware : Bytes} {options : SessionOptions}
    (hnew : new capacity firmware options = .ok plan) :
    plan.Feasible ∧ plan.endpoint.link.capacity = capacity ∧ plan.Sound plan := by
  rw [new] at hnew
  split at hnew
  · cases hnew
  next hvalid =>
    split at hnew
    · cases hnew
    next hempty =>
      split at hnew
      · cases hnew
      next hlarge =>
        cases hnew
        rw [List.isEmpty_iff_length_eq_zero] at hempty
        exact ⟨⟨Decidable.of_not_not hvalid, Nat.pos_of_ne_zero hempty, Nat.lt_of_not_le hlarge⟩,
          rfl, rfl, rfl, rfl, rfl, Assembly.fitting_none, .inl rfl⟩

/-! ## After a time out -/

variable {ack : Acknowledgement}

/-- A time out leaves a waiting session where it is, and leaves it what is under way. -/
theorem Sound.timeOut (h : plan.Sound session)
    (houtstanding : session.outstanding? = some (ack.kind, ack.id))
    (hresumed : session.timeOut = .ok resumed) :
    resumed.endpoint = { session.endpoint with link.incoming := [] }
      ∧ resumed.outstanding? = some (ack.kind, ack.id)
      ∧ ∃ k ≤ plan.chunkCount, plan.Reached session k ∧ plan.Awaits resumed k := by
  have hstart : session.stage ≠ .start := by
    intro hstage
    rw [outstanding?, hstage] at houtstanding
    cases houtstanding
  have hdone : session.stage ≠ .done := by
    intro hstage
    rw [outstanding?, hstage] at houtstanding
    cases houtstanding
  rw [timeOut_waiting hstart hdone] at hresumed
  obtain ⟨rfl, -⟩ := retransmit_eq_ok hresumed
  obtain ⟨k, hk, hreached⟩ := h.place.resolve_left hstart
  refine ⟨rfl, houtstanding, k, ?_, hreached, ?_⟩
  · by_contra hpast
    rw [hreached.outstanding?_eq hk, if_neg hpast] at houtstanding
    cases houtstanding
  · exact ⟨hreached.firmware_eq, hreached.options_eq, rfl, hreached.stage_eq, hreached.outgoing_eq⟩

theorem actOn_accepted (houtstanding : session.outstanding? = some (ack.kind, ack.id))
    (haccepted : ack.accepted = true) (packet : Packet) (target : Option UInt8) :
    session.actOn (.delivered packet (ack.toDatagram target)) = .ok session.advance := by
  have hread : acknowledgement? (.delivered packet (ack.toDatagram target)) = .ok (some ack) :=
    acknowledgement?_encoded packet rfl (data_acknowledgement ack target)
  have hjudge : session.judge ack = .accepted := by
    rw [judge_of_outstanding? houtstanding, haccepted]
    rfl
  simp only [actOn, hread, Session.answer, hjudge]

/-- A receipt that delivers nothing is not acted on. -/
theorem actOn_of_not_delivers {receipt : Receipt} (h : ¬receipt.Delivers) :
    session.actOn receipt = .ok session := by
  cases receipt with
  | delivered packet datagram => exact absurd trivial h
  | _ => rfl

/-- A frame that delivers nothing is taken off the inbox, and the rest is looked at. -/
theorem drain_of_not_delivers (session : Session) {packet : Packet} {rest : Bytes}
    {receipt : Receipt} {assembly : Assembly} (hdone : session.stage ≠ .done)
    (hinbox : session.inbox = packet.toFrame ++ rest)
    (htake : session.endpoint.assembly.take packet.toFrame = (receipt, assembly))
    (hnothing : ¬receipt.Delivers) :
    ∃ stats, session.drain = (session.behind rest assembly stats).drain := by
  obtain ⟨stats, hdrain⟩ := drain_toFrame session hinbox htake
  refine ⟨stats, ?_⟩
  rw [hdrain, actOn_of_not_delivers hnothing]
  exact if_neg hdone

/-- Unless it is taken for another, an acknowledgement that comes whole moves the session on. -/
theorem Sound.feed_clear (hpos : 0 < plan.chunkCount) (h : plan.Sound session)
    (hawaits : plan.Awaits session k) (hk : k ≤ plan.chunkCount)
    (hroom : 2 * Packet.frameSize ≤ plan.endpoint.link.capacity)
    (houtstanding : session.outstanding? = some (ack.kind, ack.id))
    (haccepted : ack.accepted = true) {target : Option UInt8}
    (hclear : ¬Assembly.Mistakes (ack.toDatagram target) session.endpoint.assembly) :
    ∃ next, session.feed (ack.toDatagram target).frames.flatten = .ok next
      ∧ plan.Stands next (k + 1) ∧ next.due = true ∧ next.retries = 0 := by
  obtain ⟨hwhole, hone⟩ := Datagram.acknowledgement_whole ack target
  obtain ⟨part, hheader, hdata⟩ :=
    Assembly.take_pair_clear hwhole hone h.incomplete h.fitting hclear
  obtain ⟨stats, hfeed⟩ :=
    hawaits.feed_pair hk (by rw [h.capacity_eq]; exact hroom) hwhole hone hheader hdata
  have hlast : plan.Stands (session.behind [] none stats) k :=
    ⟨⟨h.firmware_eq, h.options_eq, rfl, hawaits.stage_eq, hawaits.outgoing_eq⟩, h.capacity_eq, rfl⟩
  obtain ⟨hnext, hdue, hretries⟩ := hlast.advance hk hpos
  have hnamed : (session.behind [] none stats).outstanding? = some (ack.kind, ack.id) :=
    houtstanding
  have hact := actOn_accepted hnamed haccepted ((ack.toDatagram target).packetAt 1) target
  refine ⟨_, ?_, hnext, hdue, hretries⟩
  rw [hfeed, hact]
  show (if _ then _ else _) = _
  rw [drain_nil hnext.inbox_eq, ite_self]

/-- One that spoils what is under way leaves the session where it is. -/
theorem Sound.feed_spoiling (h : plan.Sound session) (hawaits : plan.Awaits session k)
    (hk : k ≤ plan.chunkCount) (hroom : 2 * Packet.frameSize ≤ plan.endpoint.link.capacity)
    {target : Option UInt8}
    (hspoils : Assembly.Spoils (ack.toDatagram target) session.endpoint.assembly) :
    ∃ next, session.feed (ack.toDatagram target).frames.flatten = .ok next
      ∧ plan.Awaits next k := by
  obtain ⟨hwhole, hone⟩ := Datagram.acknowledgement_whole ack target
  generalize ack.toDatagram target = whole at *
  obtain ⟨hheader, hnothing⟩ := Assembly.take_pair_spoils h.incomplete hspoils
  obtain ⟨hstart, hdone⟩ := hawaits.stage_ne_done hk
  have hfits : whole.frames.flatten.length + session.inbox.length
      ≤ session.endpoint.link.capacity := by
    rw [Datagram.length_flatten_frames, hwhole.packetCount_eq, hone, hawaits.inbox_eq,
      h.capacity_eq]
    exact hroom
  rw [feed_eq_drain hstart hdone hfits, hawaits.inbox_eq, List.nil_append,
    Datagram.flatten_frames_pair hwhole hone]
  -- The header is taken for the one that has come, and the data is dropped.
  generalize hlast : (whole.packetAt 1).toFrame ++ [] = last
  obtain ⟨stats, hfirst⟩ := drain_of_not_delivers
    (session.withInbox ((whole.packetAt 0).toFrame ++ last)) hdone rfl hheader id
  obtain ⟨receipt, assembly, hdata⟩ :
      ∃ receipt assembly, session.endpoint.assembly.take (whole.packetAt 1).toFrame
        = (receipt, assembly) := ⟨_, _, rfl⟩
  rw [hdata] at hnothing
  obtain ⟨stats', hsecond⟩ := drain_of_not_delivers
    ((session.withInbox ((whole.packetAt 0).toFrame ++ last)).behind last _ stats) hdone
    hlast.symm hdata hnothing
  rw [hfirst, hsecond, drain_nil rfl]
  exact ⟨_, rfl, h.firmware_eq, h.options_eq, rfl, hawaits.stage_eq, hawaits.outgoing_eq⟩

/-- What a session that has waited in vain makes of a whole acknowledgement, whatever was done with
it and whatever came before. The acknowledgement of the outstanding datagram moves it on by exactly
one datagram, unless another datagram of the acknowledgement's id is under way; if the data fails
the checksum of that one, the session stays where it is. A buffer that cannot hold two frames has no
room for an acknowledgement at all. -/
theorem acknowledged_after_timeOut {capacity : Nat} {firmware : Bytes} {options : SessionOptions}
    (hnew : new capacity firmware options = .ok plan) {calls : List Call}
    (hcalls : plan.performAll calls = .ok session) (hresumed : session.timeOut = .ok resumed)
    (haccepted : ack.accepted = true)
    (houtstanding : session.outstanding? = some (ack.kind, ack.id)) (target : Option UInt8) :
    ∃ k ≤ plan.chunkCount, plan.Reached session k
      ∧ (2 * Packet.frameSize ≤ capacity →
        (¬Assembly.Mistakes (ack.toDatagram target) session.endpoint.assembly →
          ∃ next, resumed.feed (ack.toDatagram target).frames.flatten = .ok next
            ∧ plan.Stands next (k + 1) ∧ next.due = true ∧ next.retries = 0)
        ∧ (Assembly.Spoils (ack.toDatagram target) session.endpoint.assembly →
          ∃ next, resumed.feed (ack.toDatagram target).frames.flatten = .ok next
            ∧ plan.Awaits next k))
      ∧ (capacity < 2 * Packet.frameSize →
        resumed.feed (ack.toDatagram target).frames.flatten = .error .noRoom) := by
  obtain ⟨hfeasible, rfl, hplan⟩ := new_sound hnew
  have hpos := chunkCount_pos hfeasible
  have hsound := hplan.performAll hpos hcalls
  have hlater : plan.Sound resumed := Sound.step hpos
    (show plan.Sound (Turn.mk session .timedOut resumed).before from hsound) (.timedOut hresumed)
  obtain ⟨hendpoint, hwaiting, k, hk, hreached, hawaits⟩ := hsound.timeOut houtstanding hresumed
  have hassembly : session.endpoint.assembly = resumed.endpoint.assembly := by rw [hendpoint]
  rw [hassembly]
  refine ⟨k, hk, hreached, fun hroom => ⟨?_, ?_⟩, fun htight => ?_⟩
  · exact hlater.feed_clear hpos hawaits hk hroom hwaiting haccepted
  · exact hlater.feed_spoiling hawaits hk hroom
  · obtain ⟨hwhole, hone⟩ := Datagram.acknowledgement_whole ack target
    rw [feed, Datagram.length_flatten_frames, hwhole.packetCount_eq, hone, hawaits.inbox_eq,
      hlater.capacity_eq]
    exact if_pos htight

/-! ## Two headers -/

theorem exists_of_map {α : Type} {run : Except SessionError Session} {f : Session → α} {value : α}
    (h : run.toOption.map f = some value) : ∃ session, run = .ok session ∧ f session = value := by
  cases run with
  | error error => cases h
  | ok session => exact ⟨session, rfl, Option.some.inj h⟩

theorem performAll_timeOut_feed {calls : List Call} (hcalls : plan.performAll calls = .ok session)
    (hresumed : session.timeOut = .ok resumed) (incoming : Bytes) :
    plan.performAll (calls ++ [.timeOut, .feed incoming]) = resumed.feed incoming := by
  rw [performAll, List.foldlM_append, show calls.foldlM perform plan = .ok session from hcalls]
  show (session.timeOut >>= fun resumed => resumed.feed incoming >>= pure) = _
  rw [hresumed]
  exact bind_pure (resumed.feed incoming)

/-- A session for a small image that has not begun. -/
def small : Session :=
  { announced with stage := .start, outgoing := [], due := false }

/-- The acknowledgement that the announcement is accepted. -/
def clean : Acknowledgement :=
  .ofResult .firmwareMetadata manifestId (.ok ())

/-- The session for the small image waits for the first time. -/
theorem small_timeOut (hstage : session.stage = .awaitingManifest) (hretries : session.retries = 0)
    (hoptions : session.options = small.options) : ∃ resumed, session.timeOut = .ok resumed := by
  have hallowed : session.retries.toNat < session.options.maxRetries.toNat := by
    rw [hretries, hoptions]
    decide
  rw [timeOut_waiting (by simp [hstage]) (by simp [hstage]), retransmit_withInbox,
    retransmit_allowed hallowed]
  exact ⟨_, rfl⟩

/-- Noise, the header of an answer to the second chunk, and the beginning of a frame. -/
def stray : Bytes :=
  [0x00] ++ (((small.chunkDatagram 1).answer (.error .sequenceOutOfOrder)).packetAt 0).toFrame
    ++ [Packet.startMarker, 0x01]

/-- What has come of another datagram gives way to the acknowledgement. -/
theorem acknowledged_after_timeOut_stray :
    ∃ session resumed next, small.performAll [.feed [], .feed stray] = .ok session
      ∧ session.stage = .awaitingManifest ∧ session.timeOut = .ok resumed
      ∧ resumed.feed (clean.toDatagram none).frames.flatten = .ok next
      ∧ next.stage = .awaitingChunk 0 := by
  obtain ⟨session, hcalls, hsession⟩ := exists_of_map
    (show (small.performAll [.feed [], .feed stray]).toOption.map (fun session =>
        (session.stage, session.retries, session.options, session.endpoint.assembly))
      = some (.awaitingManifest, 0, small.options, some (.awaiting
          ((small.chunkDatagram 1).answer (.error .sequenceOutOfOrder)).header))
      by decide +kernel)
  simp only [Prod.mk.injEq] at hsession
  obtain ⟨hstage, hretries, hoptions, hassembly⟩ := hsession
  obtain ⟨resumed, hresumed⟩ := small_timeOut hstage hretries hoptions
  have houtstanding : session.outstanding? = some (clean.kind, clean.id) := by
    rw [outstanding?, hstage]
    rfl
  have hclear : ¬Assembly.Mistakes (clean.toDatagram none) session.endpoint.assembly := by
    rintro ⟨part, hpart, hid, -⟩
    rw [hassembly] at hpart
    cases hpart
    exact absurd hid (by decide)
  obtain ⟨k, -, hreached, hroomy, -⟩ := acknowledged_after_timeOut
    (show new 300 small.firmware small.options = .ok small from rfl) hcalls hresumed rfl
    houtstanding none
  obtain ⟨next, hnext, hstands, -⟩ := (hroomy (by decide)).1 hclear
  obtain rfl : k = 0 := by
    have hstageAt : session.stage = small.stageAt k := hreached.stage_eq
    cases k with
    | zero => rfl
    | succ index =>
      rw [hstage, stageAt] at hstageAt
      split at hstageAt <;> cases hstageAt
  exact ⟨session, resumed, next, hcalls, hstage, hresumed, hnext,
    hstands.stage_eq.trans (by decide)⟩

/-- The header of the answer that the announcement came with a wrong checksum. -/
def torn : Bytes :=
  ((small.manifestDatagram.answer (.error .crcMismatch)).packetAt 0).toFrame

/-- The header of an answer whose data got lost has the acknowledgement get lost, although the
session has waited in vain in between. -/
theorem acknowledgement_lost_after_timeOut :
    ∃ session resumed next, small.performAll [.feed [], .feed torn] = .ok session
      ∧ session.timeOut = .ok resumed
      ∧ clean.accepted = true ∧ session.outstanding? = some (clean.kind, clean.id)
      ∧ resumed.feed (clean.toDatagram none).frames.flatten = .ok next
      ∧ next.stage = session.stage := by
  obtain ⟨session, hcalls, hsession⟩ := exists_of_map
    (show (small.performAll [.feed [], .feed torn]).toOption.map (fun session =>
        (session.stage, session.retries, session.options))
      = some (.awaitingManifest, 0, small.options) by decide +kernel)
  simp only [Prod.mk.injEq] at hsession
  obtain ⟨hstage, hretries, hoptions⟩ := hsession
  obtain ⟨resumed, hresumed⟩ := small_timeOut hstage hretries hoptions
  have houtstanding : session.outstanding? = some (clean.kind, clean.id) := by
    rw [outstanding?, hstage]
    rfl
  obtain ⟨next, hnext, hlast⟩ := exists_of_map
    (show (small.performAll ([.feed [], .feed torn] ++ [.timeOut,
        .feed (clean.toDatagram none).frames.flatten])).toOption.map (·.stage)
      = some .awaitingManifest by decide +kernel)
  have hfeed : resumed.feed (clean.toDatagram none).frames.flatten = .ok next := by
    rw [← hnext, performAll_timeOut_feed hcalls hresumed]
  exact ⟨session, resumed, next, hcalls, hresumed, rfl, houtstanding, hfeed,
    hlast.trans hstage.symm⟩

end Session

end Reflash
