/-
  Reflash.Proofs.Outbound

  What a program gets to send that collects after every call. The datagrams of the
  update come in their order, some of them more than once. None is left out as long as
  no call leads the session on by more than one. A call that finds two answers in the
  inbox does: the second names the datagram that the first has made due, and the next
  takes the place of that before it was collected. So a chunk is passed over exactly if
  its answer is there before the chunk has been sent.
-/
import Mathlib.Data.List.Sort
import Reflash.Proofs.Patience

namespace Reflash

/-! ## Frames tell datagrams apart -/

theorem Datagram.header_eq_of_frames {datagram datagram' : Datagram}
    (h : datagram.frames.flatten = datagram'.frames.flatten) :
    datagram.header = datagram'.header := by
  -- The first frame is that of the header packet, and the header is read back from it.
  rw [Assembly.frames_eq_cons, Assembly.frames_eq_cons, List.flatten_cons, List.flatten_cons] at h
  have hframe := (List.append_inj h (by simp only [Packet.length_toFrame])).1
  have hpacket := congrArg Packet.ofFrame hframe
  rw [ofFrame_packetAt, ofFrame_packetAt] at hpacket
  have hused := congrArg Packet.used (Except.ok.inj hpacket)
  rw [packetAt, packetAt, if_pos rfl, if_pos rfl, used_headerPacket, used_headerPacket] at hused
  have hdecoded := congrArg Header.decode hused
  rw [Header.decode_encode, Header.decode_encode] at hdecoded
  exact Except.ok.inj hdecoded

namespace Session

variable {plan session next last : Session} {earlier : List Turn} {turn : Turn} {k : Nat}

/-- Kind and id tell the place of a datagram in the update. -/
theorem Feasible.place_eq (h : plan.Feasible) (hk : k ≤ plan.chunkCount + 1) :
    k = match (plan.datagramAt k).kind with
      | .firmwareMetadata => 0
      | .firmwareChunk => (plan.datagramAt k).id.toNat + 1
      | _ => plan.chunkCount + 1 := by
  cases k with
  | zero => rfl
  | succ index =>
    rw [datagramAt]
    by_cases hindex : index < plan.chunkCount
    · rw [if_pos hindex]
      exact congrArg (· + 1) (id_chunkDatagram h hindex).symm
    · rw [if_neg hindex]
      exact Nat.le_antisymm hk (Nat.succ_le_succ (Nat.not_lt.1 hindex))

theorem Feasible.eq_of_frames (h : plan.Feasible) {l : Nat} (hk : k ≤ plan.chunkCount + 1)
    (hl : l ≤ plan.chunkCount + 1)
    (heq : (plan.datagramAt k).frames.flatten = (plan.datagramAt l).frames.flatten) : k = l := by
  have hheader := Datagram.header_eq_of_frames heq
  have hkind : (plan.datagramAt k).kind = (plan.datagramAt l).kind :=
    congrArg Datagram.Header.kind hheader
  have hid : (plan.datagramAt k).id = (plan.datagramAt l).id :=
    congrArg Datagram.Header.id hheader
  rw [h.place_eq hk, hkind, hid, ← h.place_eq hl]

/-! ## How far a session has come -/

/-- How many datagrams of the update a session has come to. -/
def reach (session : Session) : Nat :=
  match session.stage with
  | .start => 0
  | .awaitingManifest => 1
  | .awaitingChunk index => index + 2
  | .done => session.chunkCount + 2

theorem reach_of_stageAt (hk : k ≤ plan.chunkCount + 1) (hstage : session.stage = plan.stageAt k)
    (hcount : session.chunkCount = plan.chunkCount) : session.reach = k + 1 := by
  rw [reach, hstage]
  cases k with
  | zero => rfl
  | succ index =>
    rw [stageAt]
    by_cases h : index < plan.chunkCount
    · rw [if_pos h]
    · rw [if_neg h]
      show session.chunkCount + 2 = _
      omega

theorem reach_congr (hstage : next.stage = session.stage)
    (hcount : next.chunkCount = session.chunkCount) : next.reach = session.reach := by
  rw [reach, reach, hstage, hcount]

theorem Course.chunkCount_eq (h : plan.Course earlier session) :
    session.chunkCount = plan.chunkCount :=
  chunkCount_congr h.firmware_eq h.options_eq

/-- Past the start the frames to be sent are those of the datagram that was come to last. -/
theorem Course.outgoing_eq (h : plan.Course earlier session) (hpast : 0 < session.reach) :
    ∃ k ≤ plan.chunkCount + 1, session.reach = k + 1
      ∧ session.outgoing = (plan.datagramAt k).frames.flatten := by
  obtain ⟨hstart, -⟩ | ⟨k, hk, hreached⟩ := h.place
  · rw [reach, hstart] at hpast
    exact absurd hpast (Nat.lt_irrefl 0)
  · exact ⟨k, hk, reach_of_stageAt hk hreached.stage_eq h.chunkCount_eq, hreached.outgoing_eq⟩

/-- A turn leads on by one datagram at most, which is due then. Past the announcement it takes an
answer to the one before. -/
theorem Course.reach_step (hpos : 0 < plan.chunkCount) (h : plan.Course earlier turn.before)
    (hturn : turn.Genuine) :
    turn.after.reach = turn.before.reach
      ∨ turn.after.reach = turn.before.reach + 1 ∧ turn.after.due = true
        ∧ ∀ k, turn.before.reach = k + 1 → turn.before.stage = plan.stageAt k
          ∧ ∃ packet answer ack, turn.event = .took (.delivered packet answer)
            ∧ plan.Tells k (resent earlier) packet answer ack := by
  obtain ⟨hcourse, hlawful⟩ := h.step hpos hturn
  by_cases hsame : turn.after.stage = turn.before.stage
  · exact .inl (reach_congr hsame (hcourse.chunkCount_eq.trans h.chunkCount_eq.symm))
  -- Whatever moves the session makes a datagram due.
  have hdue : turn.after.due = true := by
    rw [hcourse.due_eq, pending_snoc, Turn.moves, bne_iff_ne.2 hsame]
    rfl
  obtain hstill | ⟨hstart, -, hafter⟩ | ⟨k, hk, hbefore, hafter, -, told⟩ := hlawful.moves
  · exact absurd hstill hsame
  · have hnone : turn.before.reach = 0 := by rw [reach, hstart]
    refine .inr ⟨?_, hdue, fun k hk => ?_⟩
    · rw [reach_of_stageAt (Nat.zero_le _) hafter hcourse.chunkCount_eq, hnone]
    · rw [hnone] at hk
      cases hk
  · have hreach := reach_of_stageAt (Nat.le_succ_of_le hk) hbefore h.chunkCount_eq
    refine .inr ⟨?_, hdue, fun k' hk' => ?_⟩
    · rw [reach_of_stageAt (Nat.succ_le_succ hk) hafter hcourse.chunkCount_eq, hreach]
    · obtain rfl : k = k' := by omega
      exact ⟨hbefore, told⟩

/-- What is due stays so until it is collected. -/
theorem Course.due_step (hpos : 0 < plan.chunkCount) (h : plan.Course earlier turn.before)
    (hturn : turn.Genuine) (hevent : ∀ bytes?, turn.event ≠ .collected bytes?)
    (hdue : turn.before.due = true) : turn.after.due = true := by
  rw [h.due_eq] at hdue
  rw [(h.step hpos hturn).1.due_eq, pending_snoc]
  split
  next heq => exact absurd heq (hevent _)
  next => rw [hdue, Bool.or_true]

/-! ## Between two collections -/

/-- An answer to datagram `k` is taken while the frames of that are still to be collected. -/
def Turn.PassesOver (turn : Turn) (plan : Session) (k : Nat) : Prop :=
  turn.before.stage = plan.stageAt k ∧ turn.before.due = true
    ∧ ∃ packet answer ack again, turn.event = .took (.delivered packet answer)
      ∧ plan.Tells k again packet answer ack

variable {turns : List Turn}

/-- A session never goes back, and what it has come to is due. -/
theorem Course.reach_linked (hpos : 0 < plan.chunkCount) (h : plan.Course earlier session)
    (hlinked : Linked session turns last) (hgenuine : ∀ turn ∈ turns, turn.Genuine)
    (hevents : ∀ turn ∈ turns, ∀ bytes?, turn.event ≠ .collected bytes?) :
    session.reach ≤ last.reach
      ∧ (session.due = true ∨ session.reach < last.reach → last.due = true) := by
  -- By induction on the turns; one that moves the session makes what it comes to due.
  induction turns generalizing earlier session with
  | nil =>
    obtain rfl : session = last := hlinked
    exact ⟨Nat.le_refl _, fun h => h.elim id fun hlt => absurd hlt (Nat.lt_irrefl _)⟩
  | cons turn turns ih =>
    obtain ⟨rfl, hlinked⟩ := hlinked
    obtain ⟨hturn, hgenuine⟩ := List.forall_mem_cons.1 hgenuine
    obtain ⟨hevent, hevents⟩ := List.forall_mem_cons.1 hevents
    obtain ⟨hle, hdue⟩ := ih (h.step hpos hturn).1 hlinked hgenuine hevents
    obtain hsame | ⟨hsucc, hmoved, -⟩ := h.reach_step hpos hturn
    · refine ⟨hsame ▸ hle, fun hor => hdue (hor.imp ?_ (hsame ▸ id))⟩
      exact h.due_step hpos hturn hevent
    · exact ⟨by omega, fun _ => hdue (.inl hmoved)⟩

/-- To come to datagram `k` and go on, a session takes the answer to it before it is collected. -/
theorem Course.passed_over (hpos : 0 < plan.chunkCount) (h : plan.Course earlier session)
    (hlinked : Linked session turns last) (hgenuine : ∀ turn ∈ turns, turn.Genuine)
    (hevents : ∀ turn ∈ turns, ∀ bytes?, turn.event ≠ .collected bytes?)
    (hle : session.reach ≤ k + 1) (hdue : session.reach = k + 1 → session.due = true)
    (hlt : k + 1 < last.reach) : ∃ turn ∈ turns, turn.PassesOver plan k := by
  -- By induction on the turns, up to the one that leads on from datagram `k`.
  induction turns generalizing earlier session with
  | nil =>
    obtain rfl : session = last := hlinked
    exact absurd hlt (Nat.not_lt.2 hle)
  | cons turn turns ih =>
    obtain ⟨rfl, hlinked⟩ := hlinked
    obtain ⟨hturn, hgenuine⟩ := List.forall_mem_cons.1 hgenuine
    obtain ⟨hevent, hevents⟩ := List.forall_mem_cons.1 hevents
    have hrest := ih (h.step hpos hturn).1 hlinked hgenuine hevents
    obtain hsame | ⟨hsucc, hmoved, htold⟩ := h.reach_step hpos hturn
    · obtain ⟨other, hmem, hpasses⟩ := hrest (hsame ▸ hle) fun hreach =>
        h.due_step hpos hturn hevent (hdue (hsame ▸ hreach))
      exact ⟨other, List.mem_cons_of_mem _ hmem, hpasses⟩
    · by_cases hhere : turn.before.reach = k + 1
      · obtain ⟨hstage, packet, answer, ack, heq, htells⟩ := htold k hhere
        exact ⟨turn, List.mem_cons_self, hstage, hdue hhere, packet, answer, ack, _, heq, htells⟩
      · obtain ⟨other, hmem, hpasses⟩ := hrest (by omega) fun _ => hmoved
        exact ⟨other, List.mem_cons_of_mem _ hmem, hpasses⟩

/-- Only the program collects. -/
theorem not_collected_of_mem_drainTurns (h : turn ∈ session.drainTurns) (bytes? : Option Bytes) :
    turn.event ≠ .collected bytes? := by
  induction session using drain.induct with
  | case1 session hshort =>
    rw [drainTurns_eq, if_pos hshort] at h
    obtain rfl := List.mem_singleton.1 h
    intro heq
    cases heq
  | case2 session hframe error herror =>
    rw [drainTurns_eq, if_neg hframe, herror] at h
    cases h
  | case3 session hframe next hnext hend =>
    rw [drainTurns_eq, if_neg hframe, hnext] at h
    replace h : turn ∈ _ :: if next.stage = .done then [] else _ := h
    rw [if_pos hend] at h
    obtain rfl := List.mem_singleton.1 h
    intro heq
    cases heq
  | case4 session hframe next hnext hmore ih =>
    rw [drainTurns_eq, if_neg hframe, hnext] at h
    replace h : turn ∈ _ :: if next.stage = .done then [] else _ := h
    rw [if_neg hmore] at h
    rcases List.mem_cons.1 h with rfl | hmem
    · intro heq
      cases heq
    · exact ih hmem

theorem not_collected_of_mem_turns {call : Call} (hcall : call ≠ .collect)
    (h : turn ∈ session.turns call) (bytes? : Option Bytes) :
    turn.event ≠ .collected bytes? := by
  cases call with
  | feed incoming =>
    rw [turns] at h
    split at h
    · cases h
    · split at h
      · obtain rfl := List.mem_singleton.1 h
        intro heq
        cases heq
      · cases h
      · rcases List.mem_cons.1 h with rfl | hmem
        · intro heq
          cases heq
        · exact not_collected_of_mem_drainTurns hmem bytes?
      · rcases List.mem_cons.1 h with rfl | hmem
        · intro heq
          cases heq
        · exact not_collected_of_mem_drainTurns hmem bytes?
  | timeOut =>
    rw [turns] at h
    split at h
    · cases h
    · obtain rfl := List.mem_singleton.1 h
      intro heq
      cases heq
  | collect => exact absurd rfl hcall

/-! ## Rounds -/

/-- A call, with the session before it and when it has ended. -/
structure Round where
  before : Session
  call : Call
  after : Session

namespace Round

/-- The frames that are collected when the call has ended. -/
def output (round : Round) : Option Bytes := round.after.collect.1

/-- The call comes to datagram `k` and leaves it behind. -/
def Skips (round : Round) (k : Nat) : Prop :=
  round.before.reach ≤ k ∧ k + 1 < round.after.reach

instance (round : Round) (k : Nat) : Decidable (round.Skips k) :=
  inferInstanceAs (Decidable (_ ∧ _))

end Round

/-- Call after call, up to the first that fails, with what is due collected after each. -/
def rounds (session : Session) : List Call → List Round
  | [] => []
  | call :: calls =>
    match session.perform call with
    | .error _ => []
    | .ok next => ⟨session, call, next⟩ :: next.collect.2.rounds calls

/-- How far rounds have led. -/
def lead (session : Session) (rounds : List Round) : Nat :=
  rounds.foldl (fun _ round => round.after.reach) session.reach

theorem collect_eq (session : Session) :
    session.collect = (if session.due then some session.outgoing else none,
      { session with due := false }) := by
  rw [collect]
  cases hdue : session.due with
  | true => rfl
  | false =>
    show (none, session) = (none, { session with due := false })
    rw [← hdue]

theorem reach_collect (session : Session) : session.collect.2.reach = session.reach := by
  rw [collect_eq]
  rfl

theorem stage_eq_start_of_reach (h : session.reach = 0) : session.stage = .start := by
  rw [reach] at h
  split at h
  next heq => exact heq
  next => cases h
  next => cases h
  next => cases h

/-- From the start a call comes no further than to the announcement. -/
theorem perform_start (hstart : session.reach = 0) {call : Call}
    (hnext : session.perform call = .ok next) :
    next.reach ≤ 1 ∧ (next.reach = 0 → next.due = true → session.due = true) := by
  have hstage := stage_eq_start_of_reach hstart
  cases call with
  | feed incoming =>
    rw [perform, feed] at hnext
    split at hnext
    · cases hnext
    · dsimp only at hnext
      rw [show (session.withInbox (session.inbox ++ incoming)).stage = .start from hstage] at hnext
      obtain rfl := Except.ok.inj hnext
      exact ⟨Nat.le_refl _, fun hzero => absurd hzero Nat.one_ne_zero⟩
  | timeOut =>
    rw [perform, timeOut, hstage] at hnext
    obtain rfl : session = next := Except.ok.inj hnext
    exact ⟨by omega, fun _ => id⟩
  | collect =>
    obtain rfl : session.collect.2 = next := Except.ok.inj hnext
    refine ⟨by rw [reach_collect, hstart]; omega, fun _ hdue => ?_⟩
    rw [collect_eq] at hdue
    cases hdue

/-- A session that a program has collected from comes to the end of another call. -/
structure Course.Calls (plan session : Session) (call : Call) (next : Session) : Prop where
  course : ∃ later, plan.Course later next
  le : session.reach ≤ next.reach
  due : session.reach < next.reach → next.due = true
  past : next.due = true → 0 < next.reach
  first : session.reach = 0 → next.reach ≤ 1
  passes : ∀ k, session.reach ≤ k → k + 1 < next.reach →
    ∃ turn ∈ session.turns call, turn.PassesOver plan k

theorem Course.calls (hpos : 0 < plan.chunkCount) (h : plan.Course earlier session)
    (hidle : session.due = false) {call : Call} (hnext : session.perform call = .ok next) :
    Course.Calls plan session call next := by
  obtain ⟨⟨last, hlinked, hlast⟩, hgenuine⟩ := traces_perform session call
  obtain rfl := hlast next hnext
  have hcourse := h.of_linked hpos hlinked hgenuine
  have hfirst := fun hstart => perform_start hstart hnext
  have hpast : session.reach ≤ last.reach → last.due = true → 0 < last.reach := by
    -- Before the announcement nothing becomes due.
    intro hle hdue
    by_contra hzero
    have hstill := (hfirst (by omega)).2 (by omega) hdue
    rw [hidle] at hstill
    cases hstill
  by_cases hcall : call = .collect
  · -- There is nothing to be collected another time.
    subst hcall
    obtain rfl : session.collect.2 = last := Except.ok.inj hnext
    have hreach := reach_collect session
    exact ⟨⟨_, hcourse⟩, by omega, by omega, hpast (by omega), fun hstart => (hfirst hstart).1,
      by omega⟩
  · have hevents : ∀ turn ∈ session.turns call, ∀ bytes?, turn.event ≠ .collected bytes? :=
      fun turn hmem => not_collected_of_mem_turns hcall hmem
    obtain ⟨hle, hdue⟩ := h.reach_linked hpos hlinked hgenuine hevents
    exact ⟨⟨_, hcourse⟩, hle, fun hlt => hdue (.inr hlt), hpast hle,
      fun hstart => (hfirst hstart).1, fun k hk hlt =>
        h.passed_over hpos hlinked hgenuine hevents (by omega) (by omega) hlt⟩

theorem Course.collect (hpos : 0 < plan.chunkCount) (h : plan.Course earlier session) :
    (∃ later, plan.Course later session.collect.2) ∧ session.collect.2.due = false := by
  refine ⟨⟨_, (h.step hpos .collected).1⟩, ?_⟩
  rw [collect_eq]

/-- Each round begins when what was due has been collected, and not behind the first. -/
theorem Course.round_of_mem (hpos : 0 < plan.chunkCount) (h : plan.Course earlier session)
    (hidle : session.due = false) {calls : List Call} {round : Round}
    (hmem : round ∈ session.rounds calls) :
    Course.Calls plan round.before round.call round.after
      ∧ session.reach ≤ round.before.reach ∧ (∃ before, plan.Course before round.before) := by
  induction calls generalizing earlier session with
  | nil => cases hmem
  | cons call calls ih =>
    rw [rounds] at hmem
    cases hnext : session.perform call with
    | error error =>
      rw [hnext] at hmem
      cases hmem
    | ok next =>
      rw [hnext] at hmem
      have hcalls := h.calls hpos hidle hnext
      obtain ⟨later, hlater⟩ := hcalls.course
      obtain ⟨⟨_, hcollected⟩, hdue⟩ := hlater.collect hpos
      rcases List.mem_cons.1 hmem with rfl | hmem
      · exact ⟨hcalls, Nat.le_refl _, _, h⟩
      · obtain ⟨hround, hle, hbefore⟩ := ih hcollected hdue hmem
        rw [reach_collect] at hle
        exact ⟨hround, Nat.le_trans hcalls.le hle, hbefore⟩

/-- What is collected: datagrams in their order, and of those that are come to all but the ones that
a call skips. -/
structure Sent (plan session : Session) (rounds : List Round) (numbers : List Nat) : Prop where
  output_eq : rounds.filterMap Round.output
    = numbers.map fun k => (plan.datagramAt k).frames.flatten
  sorted : numbers.Pairwise (· ≤ ·)
  le_of_mem : ∀ k ∈ numbers, session.reach ≤ k + 1
  le_lead : session.reach ≤ session.lead rounds
  mem_iff : ∀ k, session.reach ≤ k →
    (k ∈ numbers ↔ k < session.lead rounds ∧ ∀ round ∈ rounds, ¬round.Skips k)

theorem lead_cons (round : Round) (rounds : List Round) :
    session.lead (round :: rounds) = round.after.collect.2.lead rounds := by
  rw [lead, List.foldl_cons, lead, reach_collect]

theorem Sent.nil (plan session : Session) : Sent plan session [] [] := by
  refine ⟨rfl, .nil, List.forall_mem_nil _, Nat.le_refl _, fun k hle => ?_⟩
  exact iff_of_false List.not_mem_nil fun hk => absurd hk.1 (Nat.not_lt.2 hle)

/-- Behind what a call has led to it skips nothing. -/
theorem Sent.mem_iff_behind {round : Round} {rounds : List Round} {numbers : List Nat}
    (h : Sent plan round.after.collect.2 rounds numbers) (hk : round.after.reach ≤ k) :
    k ∈ numbers ↔ k < session.lead (round :: rounds)
      ∧ ∀ other ∈ round :: rounds, ¬other.Skips k := by
  have hkept : ¬round.Skips k := fun hskips => Nat.not_lt.2 hk (Nat.lt_of_succ_lt hskips.2)
  have hbegins : round.after.collect.2.reach ≤ k := by rwa [reach_collect]
  rw [h.mem_iff k hbegins, lead_cons, List.forall_mem_cons, and_iff_right hkept]

/-- A call that leads to no further datagram, with nothing due behind it. -/
theorem Sent.cons_idle {round : Round} {rounds : List Round} {numbers : List Nat}
    (h : Sent plan round.after.collect.2 rounds numbers)
    (hsame : round.after.reach = round.before.reach) (hnone : round.output = none) :
    Sent plan round.before (round :: rounds) numbers where
  output_eq := by rw [List.filterMap_cons, hnone, h.output_eq]
  sorted := h.sorted
  le_of_mem k hk := by
    have hleast := h.le_of_mem k hk
    rwa [reach_collect, hsame] at hleast
  le_lead := by
    have hlead := h.le_lead
    rwa [reach_collect, hsame, ← lead_cons] at hlead
  mem_iff k hk := h.mem_iff_behind (hsame ▸ hk)

/-- A call with a datagram to be collected behind it, the last that it has come to. -/
theorem Sent.cons_due {round : Round} {rounds : List Round} {numbers : List Nat} {number : Nat}
    (h : Sent plan round.after.collect.2 rounds numbers)
    (hle : round.before.reach ≤ round.after.reach) (hreach : round.after.reach = number + 1)
    (houtput : round.output = some (plan.datagramAt number).frames.flatten)
    (hbehind : ∀ later ∈ rounds, round.after.reach ≤ later.before.reach) :
    Sent plan round.before (round :: rounds) (number :: numbers) := by
  have hlead := h.le_lead
  have hleast := h.le_of_mem
  rw [reach_collect, hreach] at hlead hleast
  refine ⟨?_, ?_, ?_, ?_, fun k hk => ?_⟩
  · rw [List.filterMap_cons, houtput, List.map_cons, ← h.output_eq]
  · exact h.sorted.cons fun k hk => Nat.le_of_succ_le_succ (hleast k hk)
  · rw [List.forall_mem_cons]
    exact ⟨hreach ▸ hle, fun k hk => (hreach ▸ hle).trans (hleast k hk)⟩
  · rw [lead_cons]
    omega
  · rcases Nat.lt_trichotomy k number with hlt | rfl | hgt
    · -- The call has left this one behind, and it does not come again.
      have hskips : round.Skips k := ⟨hk, by omega⟩
      refine iff_of_false (fun hmem => ?_) fun hall => hall.2 round List.mem_cons_self hskips
      rcases List.mem_cons.1 hmem with rfl | hmem
      · exact Nat.lt_irrefl _ hlt
      · have := hleast k hmem
        omega
    · refine iff_of_true List.mem_cons_self ⟨?_, List.forall_mem_cons.2 ⟨?_, ?_⟩⟩
      · rw [lead_cons]
        omega
      · rintro ⟨-, hskips⟩
        omega
      · rintro later hlater ⟨hskips, -⟩
        have := hbehind later hlater
        omega
    · rw [List.mem_cons, or_iff_right (Nat.ne_of_gt hgt)]
      exact h.mem_iff_behind (by omega)

/-- A round in front of others that begin where it has led to. -/
theorem Sent.cons (round : Round) {rounds : List Round} {numbers : List Nat}
    (hcourse : plan.Course earlier round.after)
    (hcalls : Course.Calls plan round.before round.call round.after)
    (hbehind : ∀ later ∈ rounds, round.after.reach ≤ later.before.reach)
    (hsent : Sent plan round.after.collect.2 rounds numbers) :
    ∃ numbers, Sent plan round.before (round :: rounds) numbers := by
  have houtput : round.output = if round.after.due then some round.after.outgoing else none :=
    congrArg Prod.fst (collect_eq round.after)
  by_cases hdue : round.after.due = true
  · obtain ⟨number, -, hreach, houtgoing⟩ := hcourse.outgoing_eq (hcalls.past hdue)
    rw [if_pos hdue, houtgoing] at houtput
    exact ⟨number :: numbers, hsent.cons_due hcalls.le hreach houtput hbehind⟩
  · have hsame := Nat.le_antisymm (Nat.not_lt.1 (mt hcalls.due hdue)) hcalls.le
    rw [if_neg hdue] at houtput
    exact ⟨numbers, hsent.cons_idle hsame houtput⟩

theorem Course.sent (hpos : 0 < plan.chunkCount) (h : plan.Course earlier session)
    (hidle : session.due = false) (calls : List Call) :
    ∃ numbers, Sent plan session (session.rounds calls) numbers := by
  induction calls generalizing earlier session with
  | nil => exact ⟨[], .nil plan session⟩
  | cons call calls ih =>
    rw [rounds]
    cases hnext : session.perform call with
    | error error => exact ⟨[], .nil plan session⟩
    | ok next =>
      have hcalls := h.calls hpos hidle hnext
      obtain ⟨later, hlater⟩ := hcalls.course
      obtain ⟨⟨_, hcollected⟩, hdue⟩ := hlater.collect hpos
      obtain ⟨numbers, hsent⟩ := ih hcollected hdue
      refine Sent.cons ⟨session, call, next⟩ hlater hcalls (fun later hmem => ?_) hsent
      have hle := (hcollected.round_of_mem hpos hdue hmem).2.1
      rwa [reach_collect] at hle

/-! ## Any run -/

/-- Rounds up to one of them are those of fewer calls, and lead to where that one begins. -/
theorem rounds_split {calls : List Call} {front back : List Round} {round : Round}
    (h : session.rounds calls = front ++ round :: back) :
    session.rounds (calls.take front.length) = front ∧ session.lead front = round.before.reach := by
  -- By induction on the rounds in front, each of which is the round of the call at the head.
  induction front generalizing session calls with
  | nil =>
    cases calls with
    | nil => cases h
    | cons call calls =>
      rw [rounds] at h
      split at h
      · cases h
      · obtain ⟨rfl, -⟩ := List.cons.inj h
        exact ⟨rfl, rfl⟩
  | cons first front ih =>
    cases calls with
    | nil => cases h
    | cons call calls =>
      rw [rounds] at h
      rw [List.length_cons, List.take_succ_cons, rounds]
      split at h
      · cases h
      · obtain ⟨rfl, htail⟩ := List.cons.inj h
        obtain ⟨hrounds, hlead⟩ := ih htail
        rw [lead_cons]
        exact ⟨congrArg _ hrounds, hlead⟩

/-- Without repeats, what is collected is all that has been come to and not skipped. -/
theorem Sent.dedup_eq {rounds : List Round} {numbers : List Nat} (hstart : session.reach = 0)
    (h : Sent plan session rounds numbers) :
    numbers.dedup = (List.range (session.lead rounds)).filter fun k =>
      ∀ round ∈ rounds, ¬round.Skips k := by
  have hleft : numbers.dedup.SortedLT :=
    (h.sorted.sublist numbers.dedup_sublist).sortedLE.sortedLT_of_nodup numbers.nodup_dedup
  have hright : ((List.range (session.lead rounds)).filter fun k =>
      ∀ round ∈ rounds, ¬round.Skips k).SortedLT :=
    (List.pairwise_lt_range.filter _).sortedLT
  -- Both are in strict order, so it is enough that they have the same members.
  refine hleft.eq_of_mem_iff hright fun k => ?_
  rw [List.mem_dedup, List.mem_filter, List.mem_range, h.mem_iff k (by omega), decide_eq_true_iff]

theorem reach_new {capacity : Nat} {firmware : Bytes} {options : SessionOptions}
    (h : new capacity firmware options = .ok session) : session.reach = 0 := by
  rw [new] at h
  split at h
  · cases h
  · split at h
    · cases h
    · split at h
      · cases h
      · obtain rfl := Except.ok.inj h
        rfl

/-- Whatever bytes come in, a program that collects after every call gets the datagrams of the
update in their order, each as often as it is sent, and all that the session comes to except those
that a call skips. Such a call takes the answer to a chunk that is still to be collected. If no call
leads on by more than one datagram, what is collected is without repeats the beginning of the
update, and none is gone past before it has been collected. -/
theorem sends_unless_passed_over (capacity : Nat) {firmware : Bytes} {options : SessionOptions}
    (hvalid : options.Valid) (hpos : 0 < firmware.length) (hlt : firmware.length < 0x100000000) :
    ∃ plan, new capacity firmware options = .ok plan
      ∧ (∀ k, Says firmware options (plan.datagramAt k) k)
      ∧ (∀ k ≤ plan.chunkCount + 1, ∀ l ≤ plan.chunkCount + 1,
        (plan.datagramAt k).frames.flatten = (plan.datagramAt l).frames.flatten → k = l)
      ∧ ∀ calls, let rounds := plan.rounds calls
        (∃ numbers : List Nat,
          rounds.filterMap Round.output
              = numbers.map (fun k => (plan.datagramAt k).frames.flatten)
            ∧ numbers.Pairwise (· ≤ ·)
            ∧ numbers.dedup = ((List.range (plan.lead rounds)).filter fun k =>
              ∀ round ∈ rounds, ¬round.Skips k)
            ∧ ((∀ round ∈ rounds, round.after.reach ≤ round.before.reach + 1) →
              numbers.dedup = List.range (plan.lead rounds)))
        ∧ (∀ earlier round later, rounds = earlier ++ round :: later → ∀ k,
          k + 1 < round.after.reach → (∀ other ∈ rounds, ¬other.Skips k) →
            (plan.datagramAt k).frames.flatten ∈ earlier.filterMap Round.output)
        ∧ ∀ round ∈ rounds, ∀ k, round.Skips k → 0 < k ∧ k ≤ plan.chunkCount
          ∧ ∃ turn ∈ round.before.turns round.call, turn.PassesOver plan k := by
  obtain ⟨plan, hnew, rfl, rfl, hfeasible, hcourse⟩ := new_course capacity hvalid hpos hlt
  have hcount := chunkCount_pos hfeasible
  have hidle : plan.due = false := hcourse.due_eq
  refine ⟨plan, hnew, says_datagramAt hfeasible, fun k hk l hl => hfeasible.eq_of_frames hk hl,
    fun calls => ?_⟩
  have hstart := reach_new hnew
  refine ⟨?_, fun earlier round later hsplit k hk hkept => ?_, fun round hmem k hskips => ?_⟩
  · obtain ⟨numbers, hsent⟩ := hcourse.sent hcount hidle calls
    have hdedup := hsent.dedup_eq hstart
    refine ⟨numbers, hsent.output_eq, hsent.sorted, hdedup, fun hslow => ?_⟩
    rw [hdedup, List.filter_eq_self]
    intro k hk
    refine decide_eq_true fun round hmem hskips => ?_
    have := hslow round hmem
    have := hskips.1
    have := hskips.2
    omega
  · -- The rounds before are a run of their own, and have come past the datagram.
    obtain ⟨hearlier, hlead⟩ := rounds_split hsplit
    obtain ⟨numbers, hsent⟩ := hcourse.sent hcount hidle (calls.take earlier.length)
    rw [hearlier] at hsent
    have hbefore : k < round.before.reach := by
      by_contra hle
      exact hkept round (by simp [hsplit]) ⟨Nat.not_lt.1 hle, hk⟩
    rw [hsent.output_eq]
    apply List.mem_map_of_mem
    rw [hsent.mem_iff k (by omega), hlead]
    exact ⟨hbefore, fun other hmem => hkept other (by simp [hsplit, hmem])⟩
  · obtain ⟨hcalls, -, before, hbefore⟩ := hcourse.round_of_mem hcount hidle hmem
    obtain ⟨later, hafter⟩ := hcalls.course
    obtain ⟨last, hlast, hreach, -⟩ := hafter.outgoing_eq (by have := hskips.2; omega)
    refine ⟨?_, by have := hskips.2; omega, hcalls.passes k hskips.1 hskips.2⟩
    by_contra hzero
    have := hcalls.first (by have := hskips.1; omega)
    have := hskips.2
    omega

/-- One answer at a time: each datagram is collected, the chunk that is sent again twice. -/
theorem sends_unless_passed_over_small :
    ∃ plan, new 300 announced.firmware announced.options = .ok plan
      ∧ ∃ numbers : List Nat, (plan.rounds smallCalls).filterMap Round.output
          = numbers.map (fun k => (plan.datagramAt k).frames.flatten)
        ∧ numbers.Pairwise (· ≤ ·) ∧ numbers.dedup = [0, 1, 2, 3] ∧ numbers.length = 5 := by
  obtain ⟨plan, hnew, -, -, hruns⟩ := @sends_unless_passed_over 300 announced.firmware
    announced.options (by decide) (by decide) (by decide)
  obtain rfl : { announced with stage := .start, outgoing := [], due := false } = plan :=
    Except.ok.inj hnew
  obtain ⟨⟨numbers, houtput, hsorted, -, hslow⟩, -⟩ := hruns smallCalls
  refine ⟨_, hnew, numbers, houtput, hsorted, ?_, ?_⟩
  · exact (hslow (by decide +kernel)).trans (by decide +kernel)
  · rw [← List.length_map, ← houtput]
    decide +kernel

/-- The answer to the first chunk comes together with that to the announcement. -/
def hastyCalls : List Call :=
  [.feed [], .feed ((announced.manifestDatagram.answer (.ok ())).frames.flatten
    ++ ((announced.chunkDatagram 0).answer (.ok ())).frames.flatten)]

/-- A session for the small image, with room for two answers. -/
def roomy : Session where
  firmware := announced.firmware
  options := announced.options
  endpoint := { link := { capacity := 600 } }

/-- The session waits for the second chunk, and the first has never been collected. -/
theorem chunk_passed_over :
    new 600 announced.firmware announced.options = .ok roomy
      ∧ (roomy.rounds hastyCalls).map (fun round => round.after.stage)
        = [.awaitingManifest, .awaitingChunk 1]
      ∧ (roomy.rounds hastyCalls).filterMap Round.output
        = [roomy.manifestDatagram.frames.flatten, (roomy.chunkDatagram 1).frames.flatten]
      ∧ (roomy.chunkDatagram 0).frames.flatten
        ∉ (roomy.rounds hastyCalls).filterMap Round.output :=
  ⟨rfl, by decide +kernel, by decide +kernel, by decide +kernel⟩

end Session

end Reflash
