/-
  Reflash.Proofs.Session

  The way of a session through its update. It stands at one datagram after the other:
  the announcement, the chunks, the jump request. An answer that takes the outstanding
  datagram, or shows that an earlier copy of it was taken, moves it to the next; a time
  out has the outstanding datagram sent again.
-/
import Reflash.Proofs.Link
import Reflash.Proofs.Reassembly
import Reflash.Session.Drain

namespace Reflash

namespace Session

/-! ## Positions -/

/-- The stage of a session that stands at datagram `k`. -/
def stageAt (session : Session) : Nat → SessionStage
  | 0 => .awaitingManifest
  | index + 1 => if index < session.chunkCount then .awaitingChunk index else .done

/-- The datagrams of an update, in the order in which they are sent. -/
def datagramAt (session : Session) : Nat → Datagram
  | 0 => session.manifestDatagram
  | index + 1 =>
    if index < session.chunkCount then session.chunkDatagram index else session.jumpDatagram

/-- A session that began as `plan` is at datagram `k`, and has looked at all that it received. -/
structure Awaits (plan session : Session) (k : Nat) : Prop where
  firmware_eq : session.firmware = plan.firmware
  options_eq : session.options = plan.options
  inbox_eq : session.inbox = []
  stage_eq : session.stage = plan.stageAt k
  outgoing_eq : session.outgoing = (plan.datagramAt k).frames.flatten

/-- It stands at datagram `k` with nothing received. -/
structure Stands (plan session : Session) (k : Nat) : Prop extends Awaits plan session k where
  capacity_eq : session.endpoint.link.capacity = plan.endpoint.link.capacity
  assembly_eq : session.endpoint.assembly = none

variable {plan session : Session} {k : Nat}

/-! ## A new session -/

/-- A session that has just made the announcement of its image due. -/
def opened (capacity : Nat) (firmware : Bytes) (options : SessionOptions) : Session :=
  let session : Session := { firmware, options, endpoint := { link := { capacity } } }
  { session.queue session.manifestDatagram with stage := .awaitingManifest }

theorem new_feed {capacity : Nat} {firmware : Bytes} {options : SessionOptions}
    (hvalid : options.Valid) (hpos : 0 < firmware.length) (hlt : firmware.length < 0x100000000) :
    (new capacity firmware options >>= fun session => session.feed [])
      = .ok (opened capacity firmware options) := by
  have hne : ¬firmware.isEmpty = true := by
    rw [List.isEmpty_iff_length_eq_zero]
    omega
  have hnew : new capacity firmware options
      = .ok { firmware, options, endpoint := { link := { capacity } } } := by
    rw [new, if_neg (fun h => h hvalid), if_neg hne, if_neg (Nat.not_le.2 hlt)]
  rw [hnew]
  show feed { firmware, options, endpoint := { link := { capacity } } } [] = _
  rw [feed]
  exact if_neg (show ¬0 + 0 > capacity by omega)

theorem stands_opened (capacity : Nat) (firmware : Bytes) (options : SessionOptions) :
    (opened capacity firmware options).Stands (opened capacity firmware options) 0 :=
  ⟨⟨rfl, rfl, rfl, rfl, rfl⟩, rfl, rfl⟩

/-! ## Moving on -/

theorem chunkCount_congr {session' : Session} (hfirmware : session'.firmware = session.firmware)
    (hoptions : session'.options = session.options) :
    session'.chunkCount = session.chunkCount := by
  rw [chunkCount, hfirmware, hoptions, chunkCount]

theorem chunkDatagram_congr {session' : Session}
    (hfirmware : session'.firmware = session.firmware)
    (hoptions : session'.options = session.options) (index : Nat) :
    session'.chunkDatagram index = session.chunkDatagram index := by
  rw [chunkDatagram, chunk, hfirmware, hoptions, chunkDatagram, chunk]

theorem jumpDatagram_congr {session' : Session}
    (hoptions : session'.options = session.options) :
    session'.jumpDatagram = session.jumpDatagram := by
  rw [jumpDatagram, hoptions, jumpDatagram]

/-- Moving on touches nothing of what is received. -/
theorem endpoint_advance (session : Session) : session.advance.endpoint = session.endpoint := by
  rw [advance]
  split
  · rfl
  · split <;> rfl
  · rfl
  · rfl

/-- Moving on, a session comes to the next datagram, which is due. -/
theorem Awaits.advance (h : plan.Awaits session k) (hk : k ≤ plan.chunkCount)
    (hpos : 0 < plan.chunkCount) :
    plan.Awaits session.advance (k + 1) ∧ session.advance.due = true
      ∧ session.advance.retries = 0 := by
  have hcount := chunkCount_congr h.firmware_eq h.options_eq
  have hchunk := chunkDatagram_congr h.firmware_eq h.options_eq
  have hstage := h.stage_eq
  -- Every chunk but the first follows a chunk, and the jump request follows the last.
  have hnext : session.advance = (if k < plan.chunkCount
      then { session.queueChunk k with retries := 0 }
      else { session.queue session.jumpDatagram with stage := .done, retries := 0 }) := by
    cases k with
    | zero =>
      rw [Session.advance, hstage, if_pos hpos]
      rfl
    | succ index =>
      have hstage' : session.stage = .awaitingChunk index := hstage.trans (if_pos hk)
      rw [Session.advance, hstage', ← hcount]
  rw [hnext]
  by_cases hlt : k < plan.chunkCount
  · rw [if_pos hlt]
    refine ⟨⟨h.firmware_eq, h.options_eq, h.inbox_eq, ?_, ?_⟩, rfl, rfl⟩
    · rw [stageAt, if_pos hlt]
      rfl
    · rw [datagramAt, if_pos hlt, ← hchunk]
      rfl
  · rw [if_neg hlt]
    refine ⟨⟨h.firmware_eq, h.options_eq, h.inbox_eq, ?_, ?_⟩, rfl, rfl⟩
    · rw [stageAt, if_neg hlt]
    · rw [datagramAt, if_neg hlt, ← jumpDatagram_congr h.options_eq]
      rfl

theorem Stands.advance (h : plan.Stands session k) (hk : k ≤ plan.chunkCount)
    (hpos : 0 < plan.chunkCount) :
    plan.Stands session.advance (k + 1) ∧ session.advance.due = true
      ∧ session.advance.retries = 0 := by
  obtain ⟨hnext, hdue, hretries⟩ := h.toAwaits.advance hk hpos
  refine ⟨⟨hnext, ?_, ?_⟩, hdue, hretries⟩
  · rw [endpoint_advance, h.capacity_eq]
  · rw [endpoint_advance, h.assembly_eq]

/-- Short of its end a session awaits an answer. -/
theorem Awaits.stage_ne_done (h : plan.Awaits session k) (hk : k ≤ plan.chunkCount) :
    session.stage ≠ .start ∧ session.stage ≠ .done := by
  rw [h.stage_eq]
  cases k with
  | zero => exact ⟨nofun, nofun⟩
  | succ index =>
    rw [show plan.stageAt (index + 1) = .awaitingChunk index from if_pos hk]
    exact ⟨nofun, nofun⟩

/-- It has ended when it has come past the last chunk. -/
theorem Awaits.ended_iff (h : plan.Awaits session k) (hk : k ≤ plan.chunkCount + 1) :
    session.ended = true ↔ k = plan.chunkCount + 1 := by
  rw [ended, beq_iff_eq]
  constructor
  · intro hdone
    rcases Nat.eq_or_lt_of_le hk with heq | hlt
    · exact heq
    · exact absurd hdone (h.stage_ne_done (Nat.le_of_lt_succ hlt)).2
  · rintro rfl
    rw [h.stage_eq, stageAt, if_neg (Nat.lt_irrefl _)]

/-- Up to datagram `k` it has had one chunk less accepted. -/
theorem Awaits.progress_eq (h : plan.Awaits session k) (hk : k ≤ plan.chunkCount + 1) :
    session.progress = (k - 1, plan.chunkCount) := by
  have hcount := chunkCount_congr h.firmware_eq h.options_eq
  rw [progress, h.stage_eq, hcount]
  cases k with
  | zero => rfl
  | succ index =>
    by_cases hlt : index < plan.chunkCount
    · rw [show plan.stageAt (index + 1) = .awaitingChunk index from if_pos hlt]
      rfl
    · rw [show plan.stageAt (index + 1) = .done from if_neg hlt,
        show plan.chunkCount = index from by omega]
      rfl

/-- In a waiting session a time out drops what was received in part. -/
theorem timeOut_waiting (hstart : session.stage ≠ .start) (hdone : session.stage ≠ .done) :
    session.timeOut = (session.withInbox []).retransmit := by
  rw [timeOut]
  split
  next heq => exact absurd heq hstart
  next heq => exact absurd heq hdone
  next => rfl
  next => rfl

theorem Awaits.timeOut_eq (h : plan.Awaits session k) (hk : k ≤ plan.chunkCount) :
    session.timeOut = (session.withInbox []).retransmit :=
  timeOut_waiting (h.stage_ne_done hk).1 (h.stage_ne_done hk).2

/-- Below its limit the count goes up by one. -/
theorem toNat_retries_add_one (h : session.retries.toNat < session.options.maxRetries.toNat) :
    (session.retries + 1).toNat = session.retries.toNat + 1 := by
  have hlt := session.options.maxRetries.toNat_lt
  rw [UInt8.toNat_add]
  show (session.retries.toNat + 1) % 256 = _
  omega

/-- Below its limit the outstanding datagram is sent again; at it there is an error, and which one
it is depends on whether the count has room for another repeat. -/
theorem retransmit_eq (session : Session) :
    session.retransmit = if session.retries.toNat < session.options.maxRetries.toNat then
        .ok { session with retries := session.retries + 1, due := true }
      else .error (if session.retries = 255 then .countOverflow else .retriesExhausted) := by
  have hlt := session.options.maxRetries.toNat_lt
  rw [retransmit]
  by_cases hfull : session.retries = 255
  · have hretries : session.retries.toNat = 255 := congrArg UInt8.toNat hfull
    rw [if_pos hfull, if_neg (by omega), if_pos hfull]
  · have hsum : (session.retries + 1).toNat = session.retries.toNat + 1 := by
      have hroom := session.retries.toNat_lt
      have hne : session.retries.toNat ≠ 255 := fun h => hfull (UInt8.toNat_inj.1 h)
      rw [UInt8.toNat_add]
      show (session.retries.toNat + 1) % 256 = _
      omega
    have hover : session.retries + 1 > session.options.maxRetries
        ↔ ¬session.retries.toNat < session.options.maxRetries.toNat := by
      rw [gt_iff_lt, UInt8.lt_iff_toNat_lt, hsum]
      omega
    rw [if_neg hfull, if_neg hfull]
    by_cases hallowed : session.retries.toNat < session.options.maxRetries.toNat
    · rw [if_neg (fun h => hover.1 h hallowed), if_pos hallowed]
    · rw [if_pos (hover.2 hallowed), if_neg hallowed]

theorem retransmit_allowed (h : session.retries.toNat < session.options.maxRetries.toNat) :
    session.retransmit = .ok { session with retries := session.retries + 1, due := true } := by
  rw [retransmit_eq, if_pos h]

/-- A time out has the outstanding datagram sent again, as long as that is allowed. -/
theorem Stands.timeOut (h : plan.Stands session k) (hk : k ≤ plan.chunkCount)
    (hretries : session.retries.toNat < plan.options.maxRetries.toNat) :
    ∃ next, session.timeOut = .ok next ∧ plan.Stands next k ∧ next.due = true
      ∧ next.retries.toNat = session.retries.toNat + 1 := by
  rw [← h.options_eq] at hretries
  exact ⟨_, (h.timeOut_eq hk).trans (retransmit_allowed hretries), ⟨⟨h.firmware_eq, h.options_eq,
    rfl, h.stage_eq, h.outgoing_eq⟩, h.capacity_eq, h.assembly_eq⟩, rfl,
    toNat_retries_add_one hretries⟩

/-! ## What is received -/

/-- Looking at the inbox, one frame at a time. -/
theorem drain_eq (session : Session) :
    session.drain = if session.dropNoise.inbox.length < Packet.frameSize then .ok session.dropNoise
      else session.dropNoise.takeFrame >>= fun next =>
        if next.stage = .done then .ok next else next.drain := by
  rw [drain]
  split
  · rfl
  · split
    next error heq =>
      rw [heq]
      rfl
    next next heq =>
      rw [heq]
      rfl

theorem drain_nil (h : session.inbox = []) : session.drain = .ok session := by
  have hnoise : session.dropNoise = session := by
    rw [dropNoise, h]
    show session.withInbox [] = session
    rw [← h]
    rfl
  rw [drain_eq, hnoise, if_pos (by rw [h]; decide)]

/-- The session once a frame has come off its inbox, before that is acted on. -/
def behind (session : Session) (rest : Bytes) (assembly : Assembly) (stats : LinkStats) :
    Session :=
  { session with endpoint := ⟨{ session.endpoint.link with incoming := rest }, assembly, stats⟩ }

/-- A frame at the front of the inbox is taken and acted on. -/
theorem drain_toFrame (session : Session) {packet : Packet} {rest : Bytes} {receipt : Receipt}
    {assembly : Assembly} (hinbox : session.inbox = packet.toFrame ++ rest)
    (htake : session.endpoint.assembly.take packet.toFrame = (receipt, assembly)) :
    ∃ stats, session.drain = (session.behind rest assembly stats).actOn receipt >>= fun next =>
      if next.stage = .done then .ok next else next.drain := by
  have hnoise : session.dropNoise = session := by
    rw [dropNoise, hinbox]
    show session.withInbox (packet.toFrame ++ rest) = session
    rw [← hinbox]
    rfl
  have hlength : ¬session.inbox.length < Packet.frameSize := by
    rw [hinbox, List.length_append, Packet.length_toFrame]
    omega
  obtain ⟨stats, hreceive⟩ := Endpoint.receive_toFrame hinbox
  refine ⟨stats, ?_⟩
  have htaken : session.takeFrame = (session.behind rest assembly stats).actOn receipt := by
    rw [takeFrame, receive, hreceive, htake]
    rfl
  rw [drain_eq, hnoise, if_neg hlength, htaken]

/-- A datagram of two frames in the inbox is delivered and acted on. -/
theorem drain_pair (session : Session) {first second : Packet} {part datagram : Datagram}
    (hinbox : session.inbox = first.toFrame ++ (second.toFrame ++ []))
    (hfirst : session.endpoint.assembly.take first.toFrame = (.accepted first, some part))
    (hsecond : Assembly.take (some part) second.toFrame = (.delivered second datagram, none))
    (hdone : session.stage ≠ .done) :
    ∃ stats, session.drain
      = (session.behind [] none stats).actOn (.delivered second datagram) >>= fun next =>
        if next.stage = .done then .ok next else next.drain := by
  obtain ⟨stats, hdrain⟩ := drain_toFrame session hinbox hfirst
  obtain ⟨stats', hdrain'⟩ := drain_toFrame
    (session.behind (second.toFrame ++ []) (some part) stats) rfl hsecond
  refine ⟨stats', ?_⟩
  rw [hdrain, ← show _ = (session.behind [] none stats').actOn _ >>= _ from hdrain']
  exact if_neg hdone

theorem feed_eq_drain {incoming : Bytes} (hstart : session.stage ≠ .start)
    (hdone : session.stage ≠ .done)
    (hroom : incoming.length + session.inbox.length ≤ session.endpoint.link.capacity) :
    session.feed incoming = (session.withInbox (session.inbox ++ incoming)).drain := by
  rw [feed, if_neg (Nat.not_lt.2 hroom)]
  dsimp only
  split
  next heq => exact absurd heq hstart
  next heq => exact absurd heq hdone
  next => rfl
  next => rfl

/-- A datagram of two frames that comes whole is delivered and acted on. -/
theorem Awaits.feed_pair (h : plan.Awaits session k) (hk : k ≤ plan.chunkCount)
    (hroom : 2 * Packet.frameSize ≤ session.endpoint.link.capacity) {whole part : Datagram}
    (hwhole : whole.Whole) (hone : whole.slots.length = 1)
    (hheader : session.endpoint.assembly.take (whole.packetAt 0).toFrame
      = (.accepted (whole.packetAt 0), some part))
    (hdata : Assembly.take (some part) (whole.packetAt 1).toFrame
      = (.delivered (whole.packetAt 1) whole, none)) :
    ∃ stats, session.feed whole.frames.flatten
      = (session.behind [] none stats).actOn (.delivered (whole.packetAt 1) whole) >>= fun next =>
        if next.stage = .done then .ok next else next.drain := by
  have hlength : whole.frames.flatten.length = 2 * Packet.frameSize := by
    rw [Datagram.length_flatten_frames, hwhole.packetCount_eq, hone]
  obtain ⟨hstart, hdone⟩ := h.stage_ne_done hk
  rw [feed_eq_drain hstart hdone (by rw [h.inbox_eq, List.length_nil]; omega), h.inbox_eq,
    List.nil_append, Datagram.flatten_frames_pair hwhole hone]
  exact drain_pair (session.withInbox _) rfl hheader hdata hdone

/-! ## What is answered -/

/-- How a node refuses another copy of datagram `k` when it has taken one. -/
def RefusesCopy (k : Nat) (fault : Fault) : Prop :=
  fault = .bootloaderInvalidState ∨ 0 < k ∧ fault = .sequenceOutOfOrder

/-- What an answer says that can move a session on from datagram `k`: the datagram has been taken,
or is refused like another copy. -/
def MovesOn (k : Nat) (result : Except Fault Unit) : Prop :=
  result = .ok () ∨ ∃ fault, result = .error fault ∧ RefusesCopy k fault

/-- An acknowledgement is read back from the datagram that carries it. -/
theorem acknowledgement?_encoded (packet : Packet) {delivered : Datagram} {ack : Acknowledgement}
    (hkind : delivered.kind = .acknowledgement) (hdata : delivered.data = ack.encode) :
    acknowledgement? (.delivered packet delivered) = .ok (some ack) := by
  have hdecode := Acknowledgement.decode_encode ack []
  rw [List.append_nil] at hdecode
  rw [acknowledgement?, hkind, hdata, hdecode]

theorem data_acknowledgement (ack : Acknowledgement) (target : Option UInt8) :
    (ack.toDatagram target).data = ack.encode :=
  Datagram.data_pack _ _ _ (by rw [Acknowledgement.length_encode]; decide)

theorem acknowledgement?_delivered (packet : Packet) {delivered datagram : Datagram}
    {result : Except Fault Unit} (hkind : delivered.kind = .acknowledgement)
    (hdata : delivered.data = (datagram.answer result).data) :
    acknowledgement? (.delivered packet delivered)
      = .ok (some (.ofResult datagram.kind datagram.id result)) :=
  acknowledgement?_encoded packet hkind (hdata.trans (data_acknowledgement _ none))

theorem actOn_answer (session : Session) (packet : Packet) (datagram : Datagram)
    (result : Except Fault Unit) :
    session.actOn (.delivered packet (datagram.answer result))
      = session.answer (.ofResult datagram.kind datagram.id result) := by
  rw [actOn, acknowledgement?_delivered packet rfl rfl]

theorem Awaits.outstanding?_eq (h : plan.Awaits session k) (hk : k ≤ plan.chunkCount) :
    session.outstanding? = some ((plan.datagramAt k).kind, (plan.datagramAt k).id) := by
  cases k with
  | zero =>
    rw [outstanding?, h.stage_eq]
    rfl
  | succ index =>
    rw [outstanding?, h.stage_eq, stageAt, datagramAt, if_pos (show index < _ from hk),
      if_pos (show index < _ from hk)]
    rfl

/-- A refusal counts as acceptance if it is that of another copy. -/
theorem Awaits.isRepeatRefusal_iff (h : plan.Awaits session k) (hk : k ≤ plan.chunkCount)
    {fault : Fault} : session.isRepeatRefusal (some fault) = true ↔ RefusesCopy k fault := by
  cases k with
  | zero =>
    rw [Session.isRepeatRefusal, h.stage_eq]
    constructor
    · exact fun hrepeat => .inl (Option.some.inj (beq_iff_eq.1 hrepeat))
    · intro hcopy
      obtain rfl := hcopy.resolve_right fun hlater => Nat.lt_irrefl 0 hlater.1
      rfl
  | succ index =>
    rw [Session.isRepeatRefusal,
      h.stage_eq.trans (show plan.stageAt (index + 1) = .awaitingChunk index from if_pos hk)]
    constructor
    · intro hrepeat
      rcases Bool.or_eq_true _ _ ▸ hrepeat with hrepeat | hrepeat
      · exact .inr ⟨Nat.succ_pos index, Option.some.inj (beq_iff_eq.1 hrepeat)⟩
      · exact .inl (Option.some.inj (beq_iff_eq.1 hrepeat))
    · rintro (rfl | ⟨-, rfl⟩) <;> rfl

/-- How an answer to the outstanding datagram is judged. -/
theorem Awaits.judge_eq (h : plan.Awaits session k) (hk : k ≤ plan.chunkCount)
    (result : Except Fault Unit) :
    session.judge (.ofResult (plan.datagramAt k).kind (plan.datagramAt k).id result)
      = match result with
        | .ok () => .accepted
        | .error fault =>
          if session.retries > 0 ∧ session.isRepeatRefusal (some fault) then .alreadyApplied
          else if isPassing (some fault) then .tryAgain
          else .rejected (plan.datagramAt k).kind fault.code := by
  have hours : ∀ {verdict : Verdict}, (if (plan.datagramAt k).kind ≠ (plan.datagramAt k).kind
      ∨ (plan.datagramAt k).id ≠ (plan.datagramAt k).id then .stale else verdict) = verdict :=
    if_neg fun hother => hother.elim (fun hkind => hkind rfl) fun hid => hid rfl
  cases result with
  | ok _ =>
    rw [judge, h.outstanding?_eq hk]
    exact hours
  | error fault =>
    have hfault : (Acknowledgement.ofResult (plan.datagramAt k).kind (plan.datagramAt k).id
        (.error fault)).fault? = some fault := Fault.ofCode?_code fault
    rw [judge, h.outstanding?_eq hk, hfault]
    exact hours

/-- An answer that the outstanding datagram has been taken, now or by an earlier copy, is acted
on. -/
theorem Awaits.answer (h : plan.Awaits session k) (hk : k ≤ plan.chunkCount)
    {result : Except Fault Unit}
    (hresult : result = .ok ()
      ∨ 0 < session.retries.toNat ∧ ∃ fault, result = .error fault ∧ RefusesCopy k fault) :
    session.answer (.ofResult (plan.datagramAt k).kind (plan.datagramAt k).id result)
      = .ok session.advance := by
  rw [Session.answer, h.judge_eq hk]
  rcases hresult with rfl | ⟨hretries, fault, rfl, hfault⟩
  · rfl
  · -- A refusal counts as an answer only because the datagram has been sent more than once.
    have hrepeat : session.retries > 0 ∧ session.isRepeatRefusal (some fault) = true :=
      ⟨UInt8.lt_iff_toNat_lt.2 hretries, (h.isRepeatRefusal_iff hk).2 hfault⟩
    dsimp only
    rw [if_pos hrepeat]

/-- A session that is fed such an answer moves on. -/
theorem Stands.feed_answer (h : plan.Stands session k) (hk : k ≤ plan.chunkCount)
    (hpos : 0 < plan.chunkCount) (hroom : 2 * Packet.frameSize ≤ plan.endpoint.link.capacity)
    {result : Except Fault Unit}
    (hresult : result = .ok ()
      ∨ 0 < session.retries.toNat ∧ ∃ fault, result = .error fault ∧ RefusesCopy k fault) :
    ∃ next, session.feed ((plan.datagramAt k).answer result).frames.flatten = .ok next
      ∧ plan.Stands next (k + 1) ∧ next.due = true ∧ next.retries = 0 := by
  have hwhole := (plan.datagramAt k).answer_whole result
  have hone := (plan.datagramAt k).length_slots_answer result
  obtain ⟨part, hheader, hdata⟩ := Assembly.take_pair hwhole hone
  rw [← h.assembly_eq] at hheader
  obtain ⟨stats, hfeed⟩ :=
    h.feed_pair hk (by rw [h.capacity_eq]; exact hroom) hwhole hone hheader hdata
  have hlast : plan.Stands (session.behind [] none stats) k :=
    ⟨⟨h.firmware_eq, h.options_eq, rfl, h.stage_eq, h.outgoing_eq⟩, h.capacity_eq, rfl⟩
  obtain ⟨hnext, hdue, hretries⟩ := hlast.advance hk hpos
  refine ⟨_, ?_, hnext, hdue, hretries⟩
  rw [hfeed, actOn_answer]
  show (session.behind [] none stats).answer _ >>= _ = _
  rw [hlast.answer hk hresult]
  show (if _ then _ else _) = _
  rw [drain_nil hnext.inbox_eq, ite_self]

end Session

/-! ## Parts of an answer -/

namespace Datagram

variable (datagram datagram' : Datagram) (result result' : Except Fault Unit)

/-- All data of an answer is in one packet. -/
theorem slots_answer : (datagram.answer result).slots
    = [some (((datagram.answer result).data.drop (0 * 128)).take 128)] := by
  have hwhole := datagram.answer_whole result
  obtain ⟨slot, hslot⟩ := List.length_eq_one_iff.1 (datagram.length_slots_answer result)
  have heq := hwhole.slot_eq 0 hwhole.pos
  rw [hslot] at heq ⊢
  rw [Option.some.inj heq]

theorem slots_awaiting_answer : (awaiting (datagram.answer result).header).slots = [none] := by
  have hone := (datagram.answer_whole result).packets_eq
  rw [length_slots_answer] at hone
  show List.replicate _ none = _
  rw [hone]
  rfl

/-- Answers are all of one length. -/
theorem total_answer : (datagram.answer result).header.total
    = (datagram'.answer result').header.total := by
  show UInt32.ofNat (Acknowledgement.encode _).length
    = UInt32.ofNat (Acknowledgement.encode _).length
  rw [Acknowledgement.length_encode, Acknowledgement.length_encode]

end Datagram

/-- Nothing is under way but the header of an answer, if anything. -/
def Assembly.Answering (assembly : Assembly) : Prop :=
  assembly = none ∨ ∃ (datagram : Datagram) (result : Except Fault Unit),
    assembly = some (.awaiting (datagram.answer result).header)

namespace Assembly.Answering

variable {assembly : Assembly} {datagram : Datagram} {result : Except Fault Unit}

/-- The header of an answer brings no acknowledgement. -/
theorem take_header (h : assembly.Answering) (datagram : Datagram) (result : Except Fault Unit) :
    ∃ receipt next, assembly.take ((datagram.answer result).packetAt 0).toFrame = (receipt, next)
      ∧ next.Answering ∧ Session.acknowledgement? receipt = .ok none := by
  cases hheld : assembly.holds (datagram.answer result).header.id with
  | false =>
    exact ⟨_, _, take_packetAt (route?_header (datagram.answer_whole result).check_eq hheld)
      (Datagram.awaiting_not_complete (datagram.answer_whole result)),
      .inr ⟨datagram, result, rfl⟩, rfl⟩
  | true =>
    have hincomplete : assembly.isComplete = false := by
      rcases h with rfl | ⟨datagram', result', rfl⟩
      · rfl
      · exact Datagram.awaiting_not_complete (datagram'.answer_whole result')
    exact ⟨_, _, take_packetAt (route?_header_held hheld) hincomplete, h, rfl⟩

/-- Its data brings the acknowledgement, unless no header or another one is there for it. -/
theorem take_data (h : assembly.Answering) (datagram : Datagram) (result : Except Fault Unit) :
    ∃ receipt next, assembly.take ((datagram.answer result).packetAt 1).toFrame = (receipt, next)
      ∧ next.Answering ∧ (Session.acknowledgement? receipt = .ok none
        ∨ Session.acknowledgement? receipt
          = .ok (some (.ofResult datagram.kind datagram.id result))) := by
  have hroute := route?_data (datagram.answer result) assembly 0
  cases hheld : assembly.holds (datagram.answer result).header.id with
  | false =>
    rw [acceptData_other hheld] at hroute
    exact ⟨_, _, take_packetAt_refused hroute, h, .inl rfl⟩
  | true =>
    rcases h with rfl | ⟨datagram', result', rfl⟩
    · cases hheld
    have hid : (datagram.answer result).header.id
        = (Datagram.awaiting (datagram'.answer result').header).header.id :=
      (beq_iff_eq.1 hheld).symm
    -- Answers are all of one length, so that the data of one fits the header of another.
    obtain ⟨next, hnext⟩ : ∃ next : Datagram, next = ⟨(datagram'.answer result').header,
      (datagram.answer result).slots⟩ := ⟨_, rfl⟩
    have hdata : next.data = (datagram.answer result).data := by
      rw [hnext, Datagram.data, datagram'.total_answer datagram result' result]
      rfl
    have hnext' : route? (some (.awaiting (datagram'.answer result').header))
        ((datagram.answer result).packetAt 1) = some (.ok (some next)) := by
      rw [hroute, acceptData_dataPacket hid (show 0 < 255 by decide),
        Datagram.slots_awaiting_answer, List.getElem?_cons_zero, hnext, Datagram.slots_answer]
      rfl
    have hcomplete : isComplete (some next) = true := by
      rw [hnext, Datagram.slots_answer]
      rfl
    rw [take, Datagram.ofFrame_packetAt]
    simp only [Datagram.payloadCrc_packetAt, ne_eq, not_true_eq_false, if_false, hnext', hcomplete,
      Bool.not_true, Bool.false_eq_true]
    cases verify (some next) with
    | error fault => exact ⟨_, _, rfl, .inl rfl, .inl rfl⟩
    | ok _ =>
      refine ⟨_, _, rfl, .inl rfl, .inr (Session.acknowledgement?_delivered _ ?_ hdata)⟩
      show next.kind = _
      rw [hnext]
      rfl

/-- A frame of an answer brings the acknowledgement only if it is the data. -/
theorem take_frame (h : assembly.Answering) (datagram : Datagram) (result : Except Fault Unit)
    {n : Nat} (hn : n ≤ 1) :
    ∃ receipt next, assembly.take ((datagram.answer result).packetAt n).toFrame = (receipt, next)
      ∧ next.Answering ∧ (Session.acknowledgement? receipt = .ok none
        ∨ n = 1 ∧ Session.acknowledgement? receipt
          = .ok (some (.ofResult datagram.kind datagram.id result))) := by
  rcases Nat.le_one_iff_eq_zero_or_eq_one.1 hn with rfl | rfl
  · obtain ⟨receipt, next, htake, hanswering, hnone⟩ := h.take_header datagram result
    exact ⟨receipt, next, htake, hanswering, .inl hnone⟩
  · obtain ⟨receipt, next, htake, hanswering, hack⟩ := h.take_data datagram result
    exact ⟨receipt, next, htake, hanswering, hack.imp id fun hsome => ⟨rfl, hsome⟩⟩

end Assembly.Answering

namespace Session

variable {plan session next : Session} {k : Nat} {result : Except Fault Unit}

theorem Awaits.retransmit (h : plan.Awaits session k) (hnext : session.retransmit = .ok next) :
    plan.Awaits next k ∧ next.endpoint = session.endpoint := by
  rw [Session.retransmit_eq] at hnext
  split at hnext
  · cases hnext
    exact ⟨⟨h.firmware_eq, h.options_eq, h.inbox_eq, h.stage_eq, h.outgoing_eq⟩, rfl⟩
  · cases hnext

/-- An answer to the outstanding datagram moves the session on only if it says that the datagram has
been taken, or refuses it like another copy. -/
theorem Awaits.answer_cases (h : plan.Awaits session k) (hk : k ≤ plan.chunkCount)
    (hpos : 0 < plan.chunkCount)
    (hnext : session.answer (.ofResult (plan.datagramAt k).kind (plan.datagramAt k).id result)
      = .ok next) :
    next.endpoint = session.endpoint ∧ (plan.Awaits next k ∨ plan.Awaits next (k + 1)
      ∧ MovesOn k result) := by
  have hadvance := (h.advance hk hpos).1
  rw [Session.answer, h.judge_eq hk] at hnext
  cases result with
  | ok _ =>
    cases hnext
    exact ⟨endpoint_advance session, .inr ⟨hadvance, .inl rfl⟩⟩
  | error fault =>
    dsimp only at hnext
    by_cases hrepeat : session.retries > 0 ∧ session.isRepeatRefusal (some fault) = true
    · rw [if_pos hrepeat] at hnext
      cases hnext
      exact ⟨endpoint_advance session,
        .inr ⟨hadvance, .inr ⟨fault, rfl, (h.isRepeatRefusal_iff hk).1 hrepeat.2⟩⟩⟩
    · rw [if_neg hrepeat] at hnext
      by_cases hpassing : isPassing (some fault) = true
      · -- A passing fault has the datagram sent again, from where the session is.
        rw [if_pos hpassing] at hnext
        obtain ⟨hawaits, hendpoint⟩ := h.retransmit hnext
        exact ⟨hendpoint, .inl hawaits⟩
      · rw [if_neg hpassing] at hnext
        cases hnext

/-- Some frames of an answer move the session on only if they bring an answer that does. -/
theorem Awaits.drain_part (h : plan.Awaits session k) (hk : k ≤ plan.chunkCount)
    (hpos : 0 < plan.chunkCount) (hanswering : session.endpoint.assembly.Answering)
    {order : List Nat} (hsorted : order.Pairwise (· < ·)) (hbelow : ∀ n ∈ order, n ≤ 1)
    (hnext : (session.withInbox (((plan.datagramAt k).answer result).framesAt order).flatten).drain
      = .ok next) :
    next.endpoint.assembly.Answering ∧ (plan.Awaits next k ∨ plan.Awaits next (k + 1)
      ∧ MovesOn k result) := by
  induction order generalizing session with
  | nil =>
    have hdry : (session.withInbox []).drain = .ok (session.withInbox []) := drain_nil rfl
    cases hdry.symm.trans hnext
    exact ⟨hanswering, .inl ⟨h.firmware_eq, h.options_eq, rfl, h.stage_eq, h.outgoing_eq⟩⟩
  | cons n order ih =>
    obtain ⟨hfirst, hsorted⟩ := List.pairwise_cons.1 hsorted
    have hrest := fun m hmem => hbelow m (List.mem_cons_of_mem _ hmem)
    obtain ⟨receipt, assembly, htake, hanswering', hack⟩ :=
      hanswering.take_frame (plan.datagramAt k) result (hbelow n List.mem_cons_self)
    obtain ⟨stats, hdrain⟩ := drain_toFrame (session.withInbox _) rfl htake
    have hawaits : plan.Awaits (session.behind [] assembly stats) k :=
      ⟨h.firmware_eq, h.options_eq, rfl, h.stage_eq, h.outgoing_eq⟩
    rw [show (session.withInbox (((plan.datagramAt k).answer result).framesAt
      (n :: order)).flatten).drain = _ from hdrain, actOn] at hnext
    rcases hack with hack | ⟨rfl, hack⟩
    · rw [hack] at hnext
      exact ih hawaits hanswering' hsorted hrest
        ((if_neg (hawaits.stage_ne_done hk).2).symm.trans hnext)
    · -- Nothing comes behind the data.
      obtain rfl : order = [] := List.eq_nil_iff_forall_not_mem.2 fun m hmem =>
        absurd (hfirst m hmem) (Nat.not_lt.2 (hrest m hmem))
      rw [hack] at hnext
      have hlast : ((session.behind [] assembly stats).answer
          (.ofResult (plan.datagramAt k).kind (plan.datagramAt k).id result) >>= fun next =>
            if next.stage = .done then .ok next else next.drain) = .ok next := hnext
      cases hanswer : (session.behind [] assembly stats).answer
          (.ofResult (plan.datagramAt k).kind (plan.datagramAt k).id result) with
      | error error =>
        rw [hanswer] at hlast
        cases hlast
      | ok after =>
        obtain ⟨hendpoint, hafter⟩ := hawaits.answer_cases hk hpos hanswer
        rw [hanswer] at hlast
        have hnil : after.inbox = [] := hafter.elim Awaits.inbox_eq fun h => h.1.inbox_eq
        have heq : after = next := by
          have hstop : (if after.stage = .done then .ok after else after.drain) = .ok next := hlast
          rw [drain_nil hnil, ite_self] at hstop
          exact Except.ok.inj hstop
        rw [← heq, hendpoint]
        exact ⟨hanswering', hafter⟩

theorem Awaits.feed_part (h : plan.Awaits session k) (hk : k ≤ plan.chunkCount)
    (hpos : 0 < plan.chunkCount) (hanswering : session.endpoint.assembly.Answering)
    {order : List Nat} (hsorted : order.Pairwise (· < ·)) (hbelow : ∀ n ∈ order, n ≤ 1)
    (hnext : session.feed (((plan.datagramAt k).answer result).framesAt order).flatten
      = .ok next) :
    next.endpoint.assembly.Answering ∧ (plan.Awaits next k ∨ plan.Awaits next (k + 1)
      ∧ MovesOn k result) := by
  obtain ⟨hstart, hdone⟩ := h.stage_ne_done hk
  by_cases hroom : (((plan.datagramAt k).answer result).framesAt order).flatten.length
      + session.inbox.length ≤ session.endpoint.link.capacity
  · rw [feed_eq_drain hstart hdone hroom, h.inbox_eq, List.nil_append] at hnext
    exact h.drain_part hk hpos hanswering hsorted hbelow hnext
  · rw [feed, if_pos (Nat.lt_of_not_le hroom)] at hnext
    cases hnext

end Session

end Reflash
