/-
  Reflash.Proofs.Patience

  How often a session sends a datagram again, whatever its program does with it and
  whatever bytes come in. Until it moves on, an outstanding datagram is sent again as
  often as the options allow, for time outs and passing faults taken together, and the
  repeat that would be one too many ends the session. How it ends depends on the limit:
  repeats are counted in a byte before they are compared, and a limit of 255 leaves no
  room to count one more.
-/
import Reflash.Proofs.TimeOut

namespace Reflash

namespace Session

variable {plan session next last : Session} {earlier : List Turn}

/-! ## What ends a run -/

/-- All that a session can fail with. -/
inductive Fails (session : Session) : SessionError → Prop
  | noRoom : Fails session .noRoom
  | sessionEnded : Fails session .sessionEnded
  | took {error : SessionError} (hframe : ¬session.dropNoise.inbox.length < Packet.frameSize)
    (herror : session.dropNoise.takeFrame = .error error) : Fails session error
  | timedOut {error : SessionError} (herror : session.timeOut = .error error) : Fails session error

/-- If the turns end in an error, it is one of the session that they lead to. -/
def Ends (session : Session) (turns : List Turn) (result : Except SessionError Session) : Prop :=
  ∀ error, result = .error error → ∃ last, Linked session turns last ∧ last.Fails error

theorem Ends.ok (turns : List Turn) : Ends session turns (.ok next) :=
  fun _ h => nomatch h

theorem Ends.error {error : SessionError} (h : session.Fails error) :
    Ends session [] (.error error) := by
  rintro _ ⟨rfl⟩
  exact ⟨session, rfl, h⟩

theorem Ends.cons {turn : Turn} {turns : List Turn} {result : Except SessionError Session}
    (h : Ends turn.after turns result) : Ends turn.before (turn :: turns) result := by
  intro error herror
  obtain ⟨last, hlinked, hfails⟩ := h error herror
  exact ⟨last, ⟨rfl, hlinked⟩, hfails⟩

theorem Ends.append {turns more : List Turn} {result : Except SessionError Session}
    (h : Traces session turns (.ok next)) (hmore : Ends next more result) :
    Ends session (turns ++ more) result := by
  obtain ⟨⟨middle, hlinked, hmiddle⟩, -⟩ := h
  obtain rfl := hmiddle next rfl
  intro error herror
  obtain ⟨last, hrest, hfails⟩ := hmore error herror
  exact ⟨last, hlinked.append hrest, hfails⟩

theorem ends_drain (session : Session) : Ends session session.drainTurns session.drain := by
  -- There is no whole frame, the next one is the end in one way or another, or more follow it.
  induction session using drain.induct with
  | case1 session hshort =>
    rw [drain_eq, if_pos hshort]
    exact .ok _
  | case2 session hframe error herror =>
    rw [drainTurns_eq, if_neg hframe, drain_eq, if_neg hframe, herror]
    exact .error (.took hframe herror)
  | case3 session hframe next hnext hend =>
    rw [drain_eq, if_neg hframe, hnext]
    show Ends session _ (if _ then _ else _)
    rw [if_pos hend]
    exact .ok _
  | case4 session hframe next hnext hmore ih =>
    rw [drainTurns_eq, if_neg hframe, drain_eq, if_neg hframe, hnext]
    show Ends session (_ :: if _ then _ else _) (if _ then _ else _)
    rw [if_neg hmore, if_neg hmore]
    exact .cons ih

theorem ends_feed (session : Session) (incoming : Bytes) :
    Ends session (session.turns (.feed incoming)) (session.feed incoming) := by
  rw [turns, feed]
  split
  · exact .error .noRoom
  · dsimp only
    -- Only a session that waits for an acknowledgement reads what it is fed.
    cases hstage : session.stage with
    | start =>
      rw [show (session.withInbox (session.inbox ++ incoming)).stage = .start from hstage]
      exact .ok _
    | done =>
      rw [show (session.withInbox (session.inbox ++ incoming)).stage = .done from hstage]
      exact .error .sessionEnded
    | awaitingManifest =>
      rw [show (session.withInbox (session.inbox ++ incoming)).stage = .awaitingManifest
        from hstage]
      exact .cons (ends_drain _)
    | awaitingChunk index =>
      rw [show (session.withInbox (session.inbox ++ incoming)).stage = .awaitingChunk index
        from hstage]
      exact .cons (ends_drain _)

theorem ends_perform (session : Session) (call : Call) :
    Ends session (session.turns call) (session.perform call) := by
  cases call with
  | feed incoming => exact ends_feed session incoming
  | timeOut =>
    rw [turns, perform]
    cases hnext : session.timeOut with
    | error error => exact .error (.timedOut hnext)
    | ok next => exact .ok _
  | collect => exact .ok _

theorem ends_history (session : Session) (calls : List Call) :
    Ends session (session.history calls) (session.performAll calls) := by
  induction calls generalizing session with
  | nil => exact .ok _
  | cons call calls ih =>
    have hcall := ends_perform session call
    have htraces := traces_perform session call
    rw [history, performAll, List.foldlM_cons]
    cases hnext : session.perform call with
    | error error =>
      rw [hnext] at hcall
      rw [List.append_nil]
      exact hcall
    | ok next =>
      rw [hnext] at htraces
      exact .append htraces (ih next)

/-! ## Repeats -/

/-- A report of a passing fault with the outstanding datagram has it sent again. -/
theorem actOn_of_reportsPassing {receipt : Receipt} (h : session.reportsPassing receipt = true) :
    session.actOn receipt = session.retransmit := by
  cases hack : acknowledgement? receipt with
  | error error =>
    rw [reportsPassing, hack] at h
    cases h
  | ok ack? =>
    cases ack? with
    | none =>
      rw [reportsPassing, hack] at h
      cases h
    | some ack =>
      rw [actOn, hack]
      show session.answer ack = _
      rw [answer, (reportsPassing_iff hack).1 h]

/-- Nothing else that is received does. -/
theorem actOn_ne_of_not_reportsPassing {receipt : Receipt} {error : SessionError}
    (h : session.reportsPassing receipt = false) (herror : session.actOn receipt = .error error) :
    error ≠ .retriesExhausted ∧ error ≠ .countOverflow := by
  rw [actOn] at herror
  cases hack : acknowledgement? receipt with
  | error cause =>
    rw [hack] at herror
    -- What cannot be judged is reported as such.
    obtain rfl : cause = error := Except.error.inj herror
    cases receipt with
    | delivered packet datagram =>
      rw [acknowledgement?] at hack
      split at hack
      next => cases hack
      next =>
        obtain rfl := Except.error.inj hack
        exact ⟨by simp, by simp⟩
    | _ => cases hack
  | ok ack? =>
    rw [hack] at herror
    cases ack? with
    | none => cases herror
    | some ack =>
      have hanswer : session.answer ack = .error error := herror
      rw [answer] at hanswer
      cases hjudge : session.judge ack with
      | tryAgain =>
        rw [(reportsPassing_iff hack).2 hjudge] at h
        cases h
      | rejected kind code =>
        rw [hjudge] at hanswer
        obtain rfl := Except.error.inj hanswer
        exact ⟨by simp, by simp⟩
      | stale => rw [hjudge] at hanswer; cases hanswer
      | accepted => rw [hjudge] at hanswer; cases hanswer
      | alreadyApplied => rw [hjudge] at hanswer; cases hanswer

/-- How a session ends that is to send a datagram again once too often. -/
def gaveUp (options : SessionOptions) : SessionError :=
  if options.maxRetries = 255 then .countOverflow else .retriesExhausted

/-- What a repeat comes to is told by how many there have been since the session moved on. -/
theorem Course.retransmit_eq (h : plan.Course earlier session) {mid : Session}
    (hmid : mid = { session with endpoint := mid.endpoint }) :
    mid.retransmit = if resent earlier < plan.options.maxRetries.toNat then
        .ok { mid with retries := mid.retries + 1, due := true }
      else .error (gaveUp plan.options) := by
  have hretries : mid.retries = session.retries := by rw [hmid]
  have hoptions : mid.options = plan.options := by rw [hmid]; exact h.options_eq
  have hcount := h.retries_eq
  have hle := h.retries_le
  rw [Session.retransmit_eq, hretries, hoptions, hcount]
  by_cases hallowed : resent earlier < plan.options.maxRetries.toNat
  · rw [if_pos hallowed, if_pos hallowed]
  · -- The count is at the limit, so the two are 255 together.
    have hfull : session.retries = 255 ↔ plan.options.maxRetries = 255 := by
      rw [← UInt8.toNat_inj, ← UInt8.toNat_inj]
      omega
    rw [if_neg hallowed, if_neg hallowed, gaveUp]
    simp only [hfull]

/-- How a session repeats itself that has sent its outstanding datagram `again` times again. -/
structure Patient (options : SessionOptions) (again : Nat) (session : Session) : Prop where
  retries_eq : session.retries.toNat = again
  again_le : again ≤ options.maxRetries.toNat
  /-- Time runs out on the outstanding datagram. -/
  timeOut_eq : session.outstanding?.isSome = true → session.timeOut =
    if again < options.maxRetries.toNat then
      .ok { session.withInbox [] with retries := session.retries + 1, due := true }
    else .error (gaveUp options)
  /-- The next frame brings a report of a passing fault with it. -/
  takeFrame_eq : session.reportsPassing session.dropNoise.receive.1 = true →
    session.dropNoise.takeFrame =
      if again < options.maxRetries.toNat then
        .ok { session.dropNoise.receive.2 with retries := session.retries + 1, due := true }
      else .error (gaveUp options)
  /-- Nothing else makes the session give up. -/
  fails_only : ∀ error, session.Fails error → error = .retriesExhausted ∨ error = .countOverflow →
    again = options.maxRetries.toNat ∧ error = gaveUp options

theorem isSome_outstanding?_iff :
    session.outstanding?.isSome = true ↔ session.stage ≠ .start ∧ session.stage ≠ .done := by
  rw [outstanding?]
  cases session.stage <;> simp

theorem timeOut_of_outstanding? (h : session.outstanding?.isSome = false) :
    session.timeOut = .ok session := by
  rw [timeOut]
  rw [outstanding?] at h
  cases hstage : session.stage with
  | start => rfl
  | done => rfl
  | awaitingManifest =>
    rw [hstage] at h
    cases h
  | awaitingChunk index =>
    rw [hstage] at h
    cases h

theorem Course.timeOut_eq (h : plan.Course earlier session)
    (houtstanding : session.outstanding?.isSome = true) :
    session.timeOut = if resent earlier < plan.options.maxRetries.toNat then
        .ok { session.withInbox [] with retries := session.retries + 1, due := true }
      else .error (gaveUp plan.options) := by
  obtain ⟨hstart, hdone⟩ := isSome_outstanding?_iff.1 houtstanding
  rw [timeOut_waiting hstart hdone]
  exact h.retransmit_eq rfl

theorem Course.takeFrame_eq (h : plan.Course earlier session)
    (hreports : session.reportsPassing session.dropNoise.receive.1 = true) :
    session.dropNoise.takeFrame = if resent earlier < plan.options.maxRetries.toNat then
        .ok { session.dropNoise.receive.2 with retries := session.retries + 1, due := true }
      else .error (gaveUp plan.options) := by
  -- What is acted on the frame differs from the session only in what is received.
  have hsame : session.dropNoise.receive.2.reportsPassing session.dropNoise.receive.1 = true :=
    hreports
  have htake : session.dropNoise.takeFrame = session.dropNoise.receive.2.retransmit :=
    actOn_of_reportsPassing hsame
  rw [htake]
  exact h.retransmit_eq rfl

/-- A session on its course repeats itself as often as it is allowed to. -/
theorem Course.patient (h : plan.Course earlier session) :
    session.Patient plan.options (resent earlier) where
  retries_eq := h.retries_eq
  again_le := by
    rw [← h.retries_eq]
    exact h.retries_le
  timeOut_eq := h.timeOut_eq
  takeFrame_eq := h.takeFrame_eq
  fails_only := by
    have hle : resent earlier ≤ plan.options.maxRetries.toNat := by
      rw [← h.retries_eq]
      exact h.retries_le
    -- A repeat that fails is one too many.
    have hlast : ∀ {next : Session} {error : SessionError},
        (if resent earlier < plan.options.maxRetries.toNat then Except.ok next
          else .error (gaveUp plan.options)) = .error error →
        resent earlier = plan.options.maxRetries.toNat ∧ error = gaveUp plan.options := by
      intro next error herror
      split at herror
      next => cases herror
      next hnot =>
        obtain rfl := Except.error.inj herror
        exact ⟨Nat.le_antisymm hle (Nat.not_lt.1 hnot), rfl⟩
    intro error hfails hgives
    cases hfails with
    | noRoom => exact absurd hgives (by simp)
    | sessionEnded => exact absurd hgives (by simp)
    | took hframe herror =>
      cases hreports : session.reportsPassing session.dropNoise.receive.1 with
      | true =>
        rw [h.takeFrame_eq hreports] at herror
        exact hlast herror
      | false =>
        obtain ⟨hexhausted, hoverflow⟩ := actOn_ne_of_not_reportsPassing
          (show session.dropNoise.receive.2.reportsPassing session.dropNoise.receive.1 = false
            from hreports) herror
        exact (hgives.elim hexhausted hoverflow).elim
    | timedOut herror =>
      cases houtstanding : session.outstanding?.isSome with
      | true =>
        rw [h.timeOut_eq houtstanding] at herror
        exact hlast herror
      | false =>
        rw [timeOut_of_outstanding? houtstanding] at herror
        cases herror

theorem performAll_cons {call : Call} (h : session.perform call = .ok next) (calls : List Call) :
    session.performAll (call :: calls) = next.performAll calls := by
  rw [performAll, List.foldlM_cons, h]
  rfl

/-- A session that stands at a datagram can be timed out as often as it may send it again. -/
theorem Stands.performAll_timeOut {k n : Nat} (h : plan.Stands session k)
    (hk : k ≤ plan.chunkCount)
    (hn : session.retries.toNat + n ≤ plan.options.maxRetries.toNat) :
    ∃ next, session.performAll (List.replicate n .timeOut) = .ok next ∧ plan.Stands next k
      ∧ next.retries.toNat = session.retries.toNat + n := by
  induction n generalizing session with
  | zero => exact ⟨session, rfl, h, rfl⟩
  | succ n ih =>
    obtain ⟨mid, hmid, hstands, -, hretries⟩ := h.timeOut hk (by omega)
    obtain ⟨next, hnext, hstands, hretries'⟩ := ih hstands (by omega)
    refine ⟨next, ?_, hstands, by omega⟩
    rw [List.replicate_succ, performAll_cons (show session.perform .timeOut = _ from hmid), hnext]

/-! ## Any run -/

/-- Turns that a session can go through keep it on its course. -/
theorem Course.of_linked (hpos : 0 < plan.chunkCount) {turns : List Turn}
    (h : plan.Course earlier session) (hlinked : Linked session turns last)
    (hgenuine : ∀ turn ∈ turns, turn.Genuine) : plan.Course (earlier ++ turns) last := by
  induction turns generalizing earlier session with
  | nil =>
    obtain rfl : session = last := hlinked
    rwa [List.append_nil]
  | cons turn turns ih =>
    obtain ⟨rfl, hlinked⟩ := hlinked
    obtain ⟨hturn, hgenuine⟩ := List.forall_mem_cons.1 hgenuine
    have hrest := ih (h.step hpos hturn).1 hlinked hgenuine
    rwa [List.append_assoc] at hrest

/-- Whatever a program does with a session and whatever bytes come in: wherever the run is, the
outstanding datagram has been sent again at most as often as the options allow since the session
moved on to it, it is sent again as long as that is allowed, and the repeat after that ends the
session; a run that has ended so has used up all its repeats. -/
theorem gives_up_at_limit (capacity : Nat) {firmware : Bytes} {options : SessionOptions}
    (hvalid : options.Valid) (hpos : 0 < firmware.length) (hlt : firmware.length < 0x100000000) :
    ∃ plan, new capacity firmware options = .ok plan ∧ ∀ calls,
      (∃ last, Linked plan (plan.history calls) last)
      ∧ (∀ earlier later session, plan.history calls = earlier ++ later →
        Linked plan earlier session → session.Patient options (resent earlier))
      ∧ ∀ error, plan.performAll calls = .error error →
        error = .retriesExhausted ∨ error = .countOverflow →
          resent (plan.history calls) = options.maxRetries.toNat ∧ error = gaveUp options := by
  obtain ⟨plan, hnew, rfl, rfl, hfeasible, hcourse⟩ := new_course capacity hvalid hpos hlt
  have hcount := chunkCount_pos hfeasible
  refine ⟨plan, hnew, fun calls => ?_⟩
  -- Wherever the run has come to, its turns so far have kept the session on its course.
  obtain ⟨⟨last, hlinked, -⟩, hgenuine⟩ := traces_history plan calls
  refine ⟨⟨last, hlinked⟩, fun earlier later session hsplit hreached => ?_,
    fun error herror hgives => ?_⟩
  · have hearlier := hcourse.of_linked hcount hreached fun turn hmem =>
      hgenuine turn (by rw [hsplit]; exact List.mem_append_left _ hmem)
    exact hearlier.patient
  · obtain ⟨last, hlast, hfails⟩ := ends_history plan calls error herror
    exact (hcourse.of_linked hcount hlast hgenuine).patient.fails_only error hfails hgives

/-- Five repeats are allowed, the sixth time out is the last. -/
theorem gives_up_at_limit_announced :
    ∃ plan, new 300 announced.firmware announced.options = .ok plan
      ∧ plan.performAll (.feed [] :: List.replicate 6 .timeOut) = .error .retriesExhausted
      ∧ resent (plan.history (.feed [] :: List.replicate 6 .timeOut)) = 5 := by
  obtain ⟨plan, hnew, hruns⟩ :=
    @gives_up_at_limit 300 announced.firmware announced.options (by decide) (by decide) (by decide)
  obtain rfl : { announced with stage := .start, outgoing := [], due := false } = plan :=
    Except.ok.inj hnew
  have herror : performAll { announced with stage := .start, outgoing := [], due := false }
      (.feed [] :: List.replicate 6 .timeOut) = .error .retriesExhausted := rfl
  exact ⟨_, hnew, herror, ((hruns _).2.2 _ herror (.inl rfl)).1⟩

/-- The largest limit there is. -/
def insistent : SessionOptions :=
  { announced.options with maxRetries := 255 }

/-- With it the count has no room for the repeat that would be one too many. -/
theorem count_overflows :
    ∃ plan session, new 300 announced.firmware insistent = .ok plan
      ∧ plan.performAll (.feed [] :: List.replicate 255 .timeOut) = .ok session
      ∧ session.timeOut = .error .countOverflow ∧ session.timeOut ≠ .error .retriesExhausted := by
  obtain ⟨plan, hnew, -⟩ :=
    @new_course 300 announced.firmware insistent (by decide) (by decide) (by decide)
  have hbegun : plan.perform (.feed []) = .ok (opened 300 announced.firmware insistent) := by
    have hopen := @new_feed 300 announced.firmware insistent (by decide) (by decide) (by decide)
    rwa [hnew] at hopen
  -- All of them are allowed, and bring the count to the end of its range.
  obtain ⟨session, hcalls, hstands, hretries⟩ :=
    (stands_opened 300 announced.firmware insistent).performAll_timeOut (Nat.zero_le _)
      (show 0 + 255 ≤ 255 from Nat.le_refl _)
  have hfull : (session.withInbox []).retries = 255 := UInt8.toNat_inj.1 hretries
  have hover : session.timeOut = .error .countOverflow := by
    rw [hstands.timeOut_eq (Nat.zero_le _), retransmit, if_pos hfull]
  refine ⟨plan, session, hnew, (performAll_cons hbegun _).trans hcalls, hover, ?_⟩
  rw [hover]
  simp

end Session

end Reflash
