/-
  Reflash.Proofs.Loader.Conversation

  The loader's loop, pass by pass on a port: what is due is written and flushed, then one
  read is acted on. Each pass that is not the last takes an answer off the script, and
  once the script is used up every pass is a repeat, of which the session allows so many.
  So the loop ends. It ends well exactly if the session has got to its end and the port
  has taken every buffer, and then the port has taken nothing else. The conversation that
  the program follows, in which the answers are known beforehand, is this loop.
-/
import Mathlib
import Reflash.Proofs.Backlog
import Reflash.Proofs.Loader.Port
import Reflash.Proofs.Outbound

namespace Reflash

namespace Session

variable {session next : Session} {options : SessionOptions}

/-! ## A session that is done -/

/-- A session that goes by its options: once it is done, the jump request is due. -/
structure Closing (options : SessionOptions) (session : Session) : Prop where
  options_eq : session.options = options
  due : session.stage = .done → session.due = true
  outgoing_eq : session.stage = .done → session.outgoing = session.jumpDatagram.frames.flatten

theorem Closing.of_stage (hoptions : session.options = options) (h : session.stage ≠ .done) :
    session.Closing options :=
  ⟨hoptions, fun heq => absurd heq h, fun heq => absurd heq h⟩

theorem Closing.advance (h : session.Closing options) : session.advance.Closing options := by
  rw [Session.advance]
  split
  · exact .of_stage h.options_eq (by rintro ⟨⟩)
  · split
    · exact .of_stage h.options_eq (by rintro ⟨⟩)
    · exact ⟨h.options_eq, fun _ => rfl, fun _ => rfl⟩
  · exact ⟨h.options_eq, h.due, h.outgoing_eq⟩
  · exact ⟨h.options_eq, h.due, h.outgoing_eq⟩

theorem Closing.retransmit (h : session.Closing options) (hnext : session.retransmit = .ok next) :
    next.Closing options := by
  obtain ⟨rfl, -⟩ := retransmit_eq_ok hnext
  exact ⟨h.options_eq, fun _ => rfl, h.outgoing_eq⟩

theorem Closing.takeFrame (h : session.Closing options) (hnext : session.takeFrame = .ok next) :
    next.Closing options := by
  have hreceived : session.receive.2.Closing options := ⟨h.options_eq, h.due, h.outgoing_eq⟩
  obtain ⟨rfl, -⟩ | ⟨_, -, ⟨-, rfl⟩ | ⟨-, hagain⟩⟩ := actOn_cases hnext
  · exact hreceived
  · exact hreceived.advance
  · exact hreceived.retransmit hagain

theorem Closing.withInbox (h : session.Closing options) (bytes : Bytes) :
    (session.withInbox bytes).Closing options :=
  ⟨h.options_eq, h.due, h.outgoing_eq⟩

theorem Closing.drain {last : Session} (h : session.Closing options)
    (hlast : session.drain = .ok last) : last.Closing options := by
  -- By induction on the frames taken.
  induction session using drain.induct with
  | case1 session hshort =>
    rw [drain_eq, if_pos hshort] at hlast
    cases hlast
    exact h.withInbox _
  | case2 session hframe error herror =>
    rw [drain_eq, if_neg hframe, herror] at hlast
    cases hlast
  | case3 session hframe next hnext hend =>
    rw [drain_eq, if_neg hframe, hnext] at hlast
    obtain rfl : next = last := Except.ok.inj ((if_pos hend).symm.trans hlast)
    exact (h.withInbox _).takeFrame hnext
  | case4 session hframe next hnext hmore ih =>
    rw [drain_eq, if_neg hframe, hnext] at hlast
    exact ih ((h.withInbox _).takeFrame hnext) ((if_neg hmore).symm.trans hlast)

/-! ## A session that is talked to -/

/-- A session that the loader goes on with. -/
structure Engaged (options : SessionOptions) (session : Session) : Prop extends
    Roomy session, Closing options session where
  stage_ne_start : session.stage ≠ .start
  capacity_eq : session.endpoint.link.capacity = Loader.receiveCapacity

theorem new_oversized {capacity : Nat} {firmware : Bytes} (hvalid : options.Valid)
    (hsize : 0x100000000 ≤ firmware.length) :
    new capacity firmware options = .error (.fault .binaryOversized) := by
  have hfirmware : ¬firmware.isEmpty := by
    rw [List.isEmpty_iff]
    rintro rfl
    exact absurd hsize (by decide)
  rw [new, if_neg (not_not_intro hvalid), if_neg hfirmware, if_pos hsize]

theorem Engaged.feed (h : session.Engaged options) (hmore : session.stage ≠ .done)
    {incoming : Bytes} (hlength : incoming.length ≤ Loader.readSize) :
    session.feed incoming ≠ .error .noRoom
      ∧ ∀ next, session.feed incoming = .ok next → next.Engaged options := by
  have hroom : incoming.length + 141 ≤ session.endpoint.link.capacity := by
    rw [h.capacity_eq]
    exact Nat.le_trans (Nat.add_le_add_right hlength 141) (by decide)
  obtain ⟨hfound, hnext⟩ :=
    h.toRoomy.feed hmore (fun hstart => absurd hstart h.stage_ne_start) hroom
  refine ⟨hfound, fun next hok => ?_⟩
  obtain ⟨hroomy, hnotStart, hcapacity⟩ := hnext next hok
  have hinbox := h.cleared hmore
  rw [feed_eq_drain h.stage_ne_start hmore (by omega)] at hok
  exact ⟨hroomy, (h.toClosing.withInbox _).drain hok, hnotStart, hcapacity.trans h.capacity_eq⟩

/-- A session that waits answers a time out with a repeat, as often as it may. -/
theorem Engaged.timeOut (h : session.Engaged options) (hmore : session.stage ≠ .done) :
    session.timeOut ≠ .error .noRoom
      ∧ ∀ next, session.timeOut = .ok next → next.Engaged options
        ∧ session.retries.toNat < options.maxRetries.toNat
        ∧ next.retries.toNat = session.retries.toNat + 1 := by
  obtain ⟨hfound, hnext⟩ := h.toRoomy.timeOut
  refine ⟨hfound, fun next hok => ?_⟩
  obtain ⟨hroomy, hstart, hcapacity⟩ := hnext next hok
  rw [timeOut_waiting h.stage_ne_start hmore] at hok
  have hclosing := (h.toClosing.withInbox []).retransmit hok
  obtain ⟨rfl, hfewer⟩ := retransmit_eq_ok hok
  refine ⟨⟨hroomy, hclosing, h.stage_ne_start, hcapacity.trans h.capacity_eq⟩, ?_, ?_⟩
  · rw [← h.options_eq]
    exact hfewer
  · exact toNat_retries_add_one hfewer

theorem Engaged.collect (h : session.Engaged options) (hmore : session.stage ≠ .done) :
    session.collect.2.Engaged options := by
  have hroomy := h.toRoomy.collect.1
  rw [collect_eq] at hroomy ⊢
  exact ⟨hroomy, .of_stage h.options_eq hmore, h.stage_ne_start, h.capacity_eq⟩

end Session

namespace Loader

/-! ## The loop -/

/-- What puts an end to the loop before its time. -/
inductive Setback where
  | port (failure : Failure)
  | session (error : SessionError)

/-- What the program fails with. -/
def Setback.failure : Setback → Failure
  | port failure => failure
  | session error => sessionFailure error

/-- What becomes of the session when a read has ended. -/
def react (session : Session) : Except Failure Bytes → Except Setback Session
  | .ok bytes => (session.feed bytes).mapError .session
  | .error failure =>
    if failure.kind? = some .timedOut then session.timeOut.mapError .session
    else .error (.port failure)

/-- Bytes always find room, and of failures only a time out is put up with, as a repeat. -/
theorem react_engaged {session : Session} {options : SessionOptions}
    (h : session.Engaged options) (hmore : session.stage ≠ .done) {answer : Except Failure Bytes}
    (hlength : ∀ bytes, answer = .ok bytes → bytes.length ≤ readSize) :
    (∀ setback, react session answer = .error setback → setback ≠ .session .noRoom)
      ∧ ∀ next, react session answer = .ok next → next.Engaged options
        ∧ ∀ failure, answer = .error failure → session.retries.toNat < options.maxRetries.toNat
          ∧ next.retries.toNat = session.retries.toNat + 1 := by
  cases answer with
  | ok bytes =>
    obtain ⟨hfound, hnext⟩ := h.feed hmore (hlength bytes rfl)
    rw [react]
    cases hfeed : session.feed bytes with
    | error error =>
      rw [hfeed] at hfound
      refine ⟨?_, fun _ h => nomatch h⟩
      rintro _ ⟨rfl⟩ ⟨⟩
      exact hfound rfl
    | ok next =>
      refine ⟨nofun, ?_⟩
      rintro _ ⟨rfl⟩
      exact ⟨hnext next hfeed, nofun⟩
  | error failure =>
    obtain ⟨hfound, hnext⟩ := h.timeOut hmore
    rw [react]
    split
    · cases htimeOut : session.timeOut with
      | error error =>
        rw [htimeOut] at hfound
        refine ⟨?_, fun _ h => nomatch h⟩
        rintro _ ⟨rfl⟩ ⟨⟩
        exact hfound rfl
      | ok next =>
        refine ⟨nofun, ?_⟩
        rintro _ ⟨rfl⟩
        obtain ⟨hengaged, hrepeats⟩ := hnext next htimeOut
        exact ⟨hengaged, fun _ _ => hrepeats⟩
    · refine ⟨?_, fun _ h => nomatch h⟩
      rintro _ ⟨rfl⟩
      nofun

/-- Writes and flushes a buffer. The calls are noted. -/
def put (bytes : Bytes) (port : Script Failure) :
    Except Failure Unit × List (Except Failure Unit) × Script Failure :=
  match port.writeAll bytes with
  | (.error failure, port) => (.error failure, [.error failure], port)
  | (.ok (), port) => (port.flush.1, [.ok (), port.flush.1], port.flush.2)

/-- Where the loop stands. -/
structure Talk where
  session : Session
  port : Script Failure
  /-- The buffers that the session has handed out. -/
  handed : List Bytes := []
  /-- How the calls have ended that wrote and flushed them. -/
  calls : List (Except Failure Unit) := []

namespace Talk

/-- Hands the due frames to the port, if there are any. -/
def handOver (talk : Talk) : Except Failure Unit × Talk :=
  match talk.session.collect with
  | (none, session) => (.ok (), { talk with session })
  | (some bytes, session) =>
    let (result, calls, port) := put bytes talk.port
    (result, { session, port, handed := talk.handed ++ [bytes], calls := talk.calls ++ calls })

/-- One pass. If it is the last it comes to a result. -/
def pass (talk : Talk) : Talk × Option (Except Setback Unit) :=
  match talk.handOver with
  | (.error failure, talk) => (talk, some (.error (.port failure)))
  | (.ok (), talk) =>
    if talk.session.ended then (talk, some (.ok ()))
    else
      let (answer, port) := talk.port.read readSize
      match react talk.session answer with
      | .error setback => ({ talk with port }, some (.error setback))
      | .ok session => ({ talk with session, port }, none)

/-- The loop, `none` if it takes more than `limit` passes. -/
def loop : Nat → Talk → Option (Talk × Except Setback Unit)
  | 0, _ => none
  | limit + 1, talk =>
    match talk.pass with
    | (last, some result) => some (last, result)
    | (next, none) => loop limit next

variable {talk mid next last : Talk} {result : Except Setback Unit} {options : SessionOptions}

/-- Handing over what is due. -/
structure HandsOver (talk : Talk) (result : Except Failure Unit) (next : Talk) : Prop where
  session_eq : next.session = talk.session.collect.2
  handed_eq : next.handed = talk.handed ++ talk.session.collect.1.toList
  /-- It does well exactly if all the calls do. -/
  calls_eq : ∃ calls, next.calls = talk.calls ++ calls
    ∧ (result = .ok () ↔ ∀ call ∈ calls, call = .ok ())
  /-- What is handed over is taken whole. -/
  sent_eq : result = .ok () →
    next.port.sent = talk.port.sent ++ talk.session.collect.1.toList.flatten
  left_eq : next.port.left readSize = talk.port.left readSize
  exhausted_eq : next.port.exhausted = talk.port.exhausted

/-- A buffer is put down well exactly if all the calls are. Then it is taken whole. -/
theorem put_takes (bytes : Bytes) (port : Script Failure) :
    ((put bytes port).1 = .ok () ↔ ∀ call ∈ (put bytes port).2.1, call = .ok ())
      ∧ ∃ writes flushes taken, (put bytes port).2.2
          = { port with writes, flushes, sent := port.sent ++ taken }
        ∧ ((put bytes port).1 = .ok () → taken = bytes) := by
  obtain ⟨writes, taken, htaken, hwhole⟩ := port.writeAll_takes bytes
  rw [put]
  cases hwritten : port.writeAll bytes with
  | mk written after =>
    rw [hwritten] at htaken hwhole
    cases written with
    | error failure =>
      exact ⟨⟨nofun, fun h => h _ List.mem_cons_self⟩,
        writes, port.flushes, taken, htaken, nofun⟩
    | ok =>
      obtain ⟨flushes, hflushed⟩ := after.flush_keeps
      dsimp only at htaken hflushed ⊢
      refine ⟨?_, writes, flushes, taken, by rw [hflushed, htaken], fun _ => hwhole rfl⟩
      rw [List.forall_mem_cons, List.forall_mem_singleton]
      exact ⟨fun h => ⟨rfl, h⟩, And.right⟩

theorem handOver_handsOver (talk : Talk) : talk.HandsOver talk.handOver.1 talk.handOver.2 := by
  rw [handOver]
  cases hcollect : talk.session.collect with
  | mk due session =>
    cases due with
    | none =>
      refine ⟨?_, ?_, ⟨[], (List.append_nil _).symm, fun _ => nofun, fun _ => rfl⟩, ?_, rfl, rfl⟩
        <;> rw [hcollect]
      · exact (List.append_nil _).symm
      · exact fun _ => (List.append_nil _).symm
    | some bytes =>
      obtain ⟨hcalls, writes, flushes, taken, hport, hwhole⟩ := put_takes bytes talk.port
      refine ⟨?_, ?_, ⟨_, rfl, hcalls⟩, ?_, ?_, ?_⟩
      · rw [hcollect]
      · rw [hcollect]
        rfl
      · intro hok
        dsimp only
        rw [hport, hwhole hok, hcollect]
        exact congrArg _ (List.append_nil _).symm
      · dsimp only
        rw [hport]
        rfl
      · dsimp only
        rw [hport]

/-! ## What a pass preserves -/

/-- The loop stands where everything has gone well so far. -/
structure Sound (options : SessionOptions) (talk : Talk) : Prop where
  engaged : talk.session.Engaged options
  calls_ok : ∀ call ∈ talk.calls, call = .ok ()
  sent_eq : talk.port.sent = talk.handed.flatten

/-- The loop has come to a result that tells the truth. -/
structure Truthful (options : SessionOptions) (last : Talk) (result : Except Setback Unit) :
    Prop where
  honest : result = .ok () ↔ last.session.ended = true ∧ ∀ call ∈ last.calls, call = .ok ()
  room : result ≠ .error (.session .noRoom)
  sent_eq : result = .ok () → last.port.sent = last.handed.flatten
  jump : result = .ok () → last.handed.getLast?
    = some (({} : JumpRequest).toDatagram Session.jumpId options.target).frames.flatten

/-- The loop goes on: an answer is taken off the script, or it was a repeat. -/
structure GoesOn (options : SessionOptions) (talk next : Talk) : Prop where
  sound : next.Sound options
  left_eq : next.port.left readSize = (talk.port.left readSize).tail
  repeats : talk.port.left readSize = [] →
    talk.session.retries.toNat < options.maxRetries.toNat
      ∧ next.session.retries.toNat = talk.session.retries.toNat + 1

theorem Truthful.of_setback {setback : Setback}
    (h : ¬(last.session.ended = true ∧ ∀ call ∈ last.calls, call = .ok ()))
    (hroom : setback ≠ .session .noRoom) : last.Truthful options (.error setback) :=
  ⟨⟨nofun, fun hwell => absurd hwell h⟩, fun heq => hroom (Except.error.inj heq), nofun, nofun⟩

/-- A buffer that is not taken is an end that tells the truth. -/
theorem HandsOver.truthful {failure : Failure} (h : talk.HandsOver (.error failure) mid) :
    mid.Truthful options (.error (.port failure)) := by
  obtain ⟨calls, hcalls, hwell⟩ := h.calls_eq
  refine .of_setback (fun ⟨_, hok⟩ => ?_) nofun
  rw [hcalls] at hok
  exact absurd (hwell.2 fun call hmem => hok call (List.mem_append_right _ hmem)) nofun

theorem Sound.calls_sent (h : talk.Sound options) (hover : talk.HandsOver (.ok ()) mid) :
    (∀ call ∈ mid.calls, call = .ok ()) ∧ mid.port.sent = mid.handed.flatten := by
  obtain ⟨calls, hcalls, hwell⟩ := hover.calls_eq
  rw [hcalls, hover.sent_eq rfl, hover.handed_eq, List.flatten_append, h.sent_eq]
  exact ⟨List.forall_mem_append.2 ⟨h.calls_ok, hwell.1 rfl⟩, rfl⟩

theorem HandsOver.stage_eq {handed : Except Failure Unit} (h : talk.HandsOver handed mid) :
    mid.session.stage = talk.session.stage := by
  rw [h.session_eq, Session.collect_eq]

/-- Once the session has ended, the jump request is what has been handed over last. -/
theorem Sound.truthful (h : talk.Sound options) (hover : talk.HandsOver (.ok ()) mid)
    (hended : mid.session.ended = true) : mid.Truthful options (.ok ()) := by
  obtain ⟨hok, hsent⟩ := h.calls_sent hover
  refine ⟨⟨fun _ => ⟨hended, hok⟩, fun _ => rfl⟩, nofun, fun _ => hsent, fun _ => ?_⟩
  have hdone : talk.session.stage = .done := by
    rw [← hover.stage_eq]
    exact beq_iff_eq.1 hended
  rw [hover.handed_eq, Session.collect_eq, if_pos (h.engaged.due hdone),
    h.engaged.outgoing_eq hdone, Session.jumpDatagram, h.engaged.options_eq]
  exact List.getLast?_concat

/-- A read is an end that tells the truth, or the loop goes on. -/
theorem Sound.reads (h : talk.Sound options) (hover : talk.HandsOver (.ok ()) mid)
    (hended : ¬mid.session.ended = true) :
    let read := mid.port.read readSize
    (∀ setback, react mid.session read.1 = .error setback →
        Truthful options { mid with port := read.2 } (.error setback))
      ∧ ∀ session, react mid.session read.1 = .ok session →
        talk.GoesOn options { mid with session, port := read.2 } := by
  obtain ⟨hok, hsent⟩ := h.calls_sent hover
  have hmore : mid.session.stage ≠ .done :=
    Session.ended_eq_false_iff.1 (Bool.eq_false_iff.2 hended)
  have hengaged : mid.session.Engaged options := by
    rw [hover.session_eq]
    exact h.engaged.collect (hover.stage_eq ▸ hmore)
  obtain ⟨hroom, hnext⟩ := react_engaged hengaged hmore
    fun bytes hread => mid.port.length_read_le hread
  refine ⟨fun setback hreact => .of_setback (fun hwell => hended hwell.1) (hroom setback hreact),
    fun session hreact => ?_⟩
  obtain ⟨hstill, hrepeats⟩ := hnext session hreact
  obtain ⟨reads, rest, hport⟩ := mid.port.read_keeps readSize
  refine ⟨⟨hstill, hok, ?_⟩, ?_, fun hleft => ?_⟩
  · dsimp only
    rw [hport]
    exact hsent
  · rw [← hover.left_eq]
    exact mid.port.left_read (by decide)
  · rw [← hover.left_eq] at hleft
    have := hrepeats mid.port.exhausted
      (congrArg Prod.fst (Script.read_of_left_nil (by decide) hleft))
    rwa [hover.session_eq, Session.collect_eq] at this

theorem Sound.pass (h : talk.Sound options) :
    (∃ last result, talk.pass = (last, some result) ∧ last.Truthful options result)
      ∨ ∃ next, talk.pass = (next, none) ∧ talk.GoesOn options next := by
  have hover := talk.handOver_handsOver
  rw [Talk.pass]
  cases hhand : talk.handOver with
  | mk handed mid =>
    rw [hhand] at hover
    cases handed with
    | error failure => exact .inl ⟨mid, _, rfl, hover.truthful⟩
    | ok =>
      dsimp only
      by_cases hended : mid.session.ended = true
      · exact .inl ⟨mid, _, if_pos hended, h.truthful hover hended⟩
      · obtain ⟨hsetback, hgoes⟩ := h.reads hover hended
        rw [if_neg hended]
        cases hreact : react mid.session (mid.port.read readSize).1 with
        | error setback => exact .inl ⟨_, _, rfl, hsetback setback hreact⟩
        | ok session => exact .inr ⟨_, rfl, hgoes session hreact⟩

/-! ## The whole loop -/

theorem Sound.loop (h : talk.Sound options) {limit : Nat}
    (hloop : talk.loop limit = some (last, result)) : last.Truthful options result := by
  -- By induction on the limit: a pass is the last one, or everything is still well behind it.
  induction limit generalizing talk with
  | zero => cases hloop
  | succ limit ih =>
    rw [Talk.loop] at hloop
    obtain ⟨_, _, hpass, htruthful⟩ | ⟨next, hpass, hon⟩ := h.pass
    · rw [hpass] at hloop
      cases hloop
      exact htruthful
    · rw [hpass] at hloop
      exact ih hon.sound hloop

/-- Once the script is used up, the repeats that are left put an end to the loop. -/
theorem Sound.loop_silent (h : talk.Sound options) (hleft : talk.port.left readSize = [])
    {limit : Nat} (hlimit : options.maxRetries.toNat - talk.session.retries.toNat < limit) :
    (talk.loop limit).isSome := by
  -- By induction on the limit, which stays above the repeats that are left.
  induction limit generalizing talk with
  | zero => cases hlimit
  | succ limit ih =>
    rw [Talk.loop]
    obtain ⟨_, _, hpass, -⟩ | ⟨next, hpass, hon⟩ := h.pass
    · rw [hpass]
      rfl
    · rw [hpass]
      obtain ⟨hfewer, hretries⟩ := hon.repeats hleft
      refine ih hon.sound ?_ (by omega)
      rw [hon.left_eq, hleft]
      rfl

/-- The loop ends: answers may be many and acknowledgements may start the count of repeats anew,
but every pass takes an answer off the script until only repeats are left. -/
theorem Sound.loop_ends (h : talk.Sound options) :
    (talk.loop ((talk.port.left readSize).length + (options.maxRetries.toNat + 1))).isSome := by
  -- By induction on what the script has left; a pass leaves all of it but the first.
  generalize hleft : talk.port.left readSize = answers
  induction answers generalizing talk with
  | nil =>
    rw [List.length_nil, Nat.zero_add]
    exact h.loop_silent hleft (by omega)
  | cons answer answers ih =>
    rw [List.length_cons, Nat.add_right_comm, Talk.loop]
    obtain ⟨_, _, hpass, -⟩ | ⟨next, hpass, hon⟩ := h.pass
    · rw [hpass]
      rfl
    · rw [hpass]
      refine ih hon.sound ?_
      rw [hon.left_eq, hleft]
      rfl

end Talk

/-! ## The conversation that the program follows -/

theorem respond_eq (session : Session) (answer : Except Failure Bytes) :
    (respond session answer).2 = (react session answer).mapError Setback.failure := by
  cases answer with
  | ok bytes =>
    rw [respond, react]
    cases session.feed bytes <;> rfl
  | error failure =>
    rw [respond, react]
    split
    · cases session.timeOut <;> rfl
    · rfl

theorem turn_eq (talk : Talk) : turn talk.session talk.port
    = (talk.handOver.1.map fun () => talk.handOver.2.session, talk.handOver.2.port) := by
  rw [turn, Talk.handOver]
  cases hcollect : talk.session.collect with
  | mk due session =>
    cases due with
    | none => rfl
    | some bytes =>
      dsimp only
      rw [deliver, put]
      cases hwritten : talk.port.writeAll bytes with
      | mk written port => cases written <;> rfl

theorem turn_aside (session : Session) (port : Script Failure)
    (reads : List (ScriptedRead Failure)) (rest : Bytes) :
    turn session { port with reads, rest }
      = ((turn session port).1, { (turn session port).2 with reads, rest }) := by
  rw [turn, turn]
  cases hcollect : session.collect with
  | mk due session =>
    cases due with
    | none => rfl
    | some bytes =>
      dsimp only
      rw [deliver, deliver, Script.writeAll_aside]
      cases hwritten : port.writeAll bytes with
      | mk written port =>
        cases written with
        | error failure => rfl
        | ok =>
          dsimp only
          rw [Script.flush_aside]

/-- What is left to read has no part in a conversation whose answers are known beforehand. -/
theorem converse_aside (session : Session) (port : Script Failure)
    (answers : List (Except Failure Bytes)) (reads : List (ScriptedRead Failure)) (rest : Bytes) :
    (converse session { port with reads, rest } answers).2
      = ((converse session port answers).2.1,
        { (converse session port answers).2.2 with reads, rest }) := by
  induction answers generalizing session port with
  | nil =>
    rw [converse, converse, turn_aside]
    cases hturn : turn session port with
    | mk result port =>
      cases result with
      | error failure => rfl
      | ok session =>
        dsimp only
        split <;> rfl
  | cons answer answers ih =>
    rw [converse, converse, turn_aside]
    cases hturn : turn session port with
    | mk result port =>
      cases result with
      | error failure => rfl
      | ok session =>
        dsimp only
        split
        · rfl
        · cases hrespond : respond session answer with
          | mk more next =>
            cases next with
            | error failure => rfl
            | ok next => exact ih next port

/-- The conversation with the answers that the port gives is the loop on the port. -/
theorem Talk.loop_converse {talk last : Talk} {result : Except Setback Unit}
    {answers : List (Except Failure Bytes)} {beyond : Nat}
    (hanswers : answers
      = talk.port.left readSize ++ List.replicate beyond (.error talk.port.exhausted))
    (hloop : talk.loop answers.length = some (last, result)) :
    (converse talk.session talk.port answers).2.1 = result.mapError Setback.failure
      ∧ (converse talk.session talk.port answers).2.2.sent = last.port.sent := by
  induction answers generalizing talk beyond with
  | nil => cases hloop
  | cons answer answers ih =>
    have hover := talk.handOver_handsOver
    -- Both hand over the same; then one takes the answer from the list and the other from the port.
    rw [List.length_cons, Talk.loop, Talk.pass] at hloop
    rw [converse, turn_eq]
    cases hhand : talk.handOver with
    | mk handed mid =>
      rw [hhand] at hloop hover
      dsimp only at hover
      cases handed with
      | error failure =>
        cases hloop
        exact ⟨rfl, rfl⟩
      | ok =>
        dsimp only [Except.map] at hloop ⊢
        rw [← hover.left_eq, ← hover.exhausted_eq] at hanswers
        obtain ⟨hread, beyond, hothers⟩ := Script.read_of_answers (by decide) hanswers
        have hrespond := respond_eq mid.session answer
        obtain ⟨reads, rest, hport⟩ := mid.port.read_keeps readSize
        rw [hread] at hloop
        split
        next hended =>
          rw [if_pos hended] at hloop
          cases hloop
          exact ⟨rfl, rfl⟩
        next hended =>
          rw [if_neg hended] at hloop
          cases hresponse : respond mid.session answer with
          | mk more next =>
            rw [hresponse] at hrespond
            dsimp only at hrespond
            cases hreact : react mid.session answer with
            | error setback =>
              rw [hreact] at hloop hrespond
              cases hloop
              rw [hrespond, hport]
              exact ⟨rfl, rfl⟩
            | ok session =>
              rw [hreact] at hloop hrespond
              rw [hrespond]
              -- The port that was read differs in what is left to read only.
              have hrest := ih hothers hloop
              dsimp only at hrest
              rw [hport, converse_aside] at hrest
              exact hrest

/-! ## The program -/

variable {plan : Plan} {world : World}

theorem options_valid (node : Option UInt8) (path : String) : (options node path).Valid := by
  show 0 < Datagram.maxSize ∧ Datagram.maxSize ≤ Datagram.maxSize ∧ Datagram.maxSize % 4 = 0
  decide

theorem openSession_eq (plan : Plan) : (openSession plan).2
    = (Session.new receiveCapacity plan.image (options plan.node plan.path)
      >>= fun session => session.feed []).mapError sessionFailure := by
  rw [openSession]
  cases Session.new receiveCapacity plan.image (options plan.node plan.path) <;> rfl

theorem openSession_opened (himage : plan.image ≠ []) (hsize : plan.image.length < 0x100000000) :
    (openSession plan).2
      = .ok (Session.opened receiveCapacity plan.image (options plan.node plan.path)) := by
  rw [openSession_eq, Session.new_feed (options_valid plan.node plan.path)
    (List.length_pos_iff.2 himage) hsize]
  rfl

theorem opened_engaged (plan : Plan) :
    (Session.opened receiveCapacity plan.image (options plan.node plan.path)).Engaged
      (options plan.node plan.path) :=
  ⟨⟨nofun, fun _ => Nat.zero_le _⟩, .of_stage rfl (by rintro ⟨⟩), nofun, rfl⟩

theorem openSession_oversized (hsize : 0x100000000 ≤ plan.image.length) :
    (openSession plan).2 = .error (sessionFailure (.fault .binaryOversized)) := by
  rw [openSession_eq, Session.new_oversized (options_valid plan.node plan.path) hsize]
  rfl

/-- The command line makes sense, the image can be read, and a port can be opened of which nothing
has been read and to which nothing has been written. -/
structure World.Opens (world : World) (plan : Plan) : Prop where
  path_eq : Arguments.firmwarePath world.arguments = .ok plan.path
  image_eq : world.files.read plan.path = .ok plan.image
  image_ne_nil : plan.image ≠ []
  port_eq : ∃ ports, world.ports = .ok ports
    ∧ choosePort world.arguments ports = some plan.opening.name
  baud_eq : Arguments.baud world.arguments = .ok plan.opening.baud
  node_eq : Arguments.nodeId world.arguments = .ok plan.node
  accepted : world.refusal = none
  rest_eq : world.port.rest = []
  sent_eq : world.port.sent = []

theorem World.Opens.prepare_eq (h : world.Opens plan) :
    ∃ records, prepare world.arguments
      (fun path => (world.files.read path).mapError FileError.message) world.ports
        = (records, .planned plan) := by
  obtain ⟨ports, hports, hname⟩ := h.port_eq
  rw [prepare, h.path_eq]
  dsimp only
  rw [h.image_eq, hports]
  dsimp only [Except.mapError]
  rw [hname, h.baud_eq, h.node_eq]
  exact ⟨_, rfl⟩

theorem World.Opens.run_eq (h : world.Opens plan) :
    ((run world).ending, (run world).sent) = match (openSession plan).2 with
      | .error failure => (.error failure, [])
      | .ok session =>
        let talk := converse session world.port
          (answers world.port session.options.maxRetries.toNat)
        (talk.2.1, talk.2.2.sent) := by
  obtain ⟨records, hprepare⟩ := h.prepare_eq
  rw [run, hprepare]
  dsimp only
  rw [h.accepted]
  dsimp only
  generalize openSession plan = opened
  obtain ⟨more, session⟩ := opened
  cases session <;> rfl

theorem exitCode_eq_zero {outcome : Outcome} : outcome.exitCode = 0 ↔ outcome.ending = .ok () := by
  rw [Outcome.exitCode]
  cases outcome.ending with
  | ok => exact ⟨fun _ => rfl, fun _ => rfl⟩
  | error failure => exact ⟨nofun, nofun⟩

theorem mapError_eq_ok {result : Except Setback Unit} :
    result.mapError Setback.failure = .ok () ↔ result = .ok () := by
  cases result with
  | ok => exact ⟨fun _ => rfl, fun _ => rfl⟩
  | error setback => exact ⟨nofun, nofun⟩

/-- Once its port is open the loader ends, after no more passes than the script has answers and the
session has patience, and its exit code tells the truth. It is 0 exactly if the session has got to
its end and each buffer was written and flushed, and then the port has taken the buffers that were
handed out, whole and in order, the jump request last. The session is never given more than it has
room for. Only an image whose length does not fit into a word is refused at once. -/
theorem exit_tells_truth (h : world.Opens plan) :
    (0x100000000 ≤ plan.image.length →
        (run world).ending = .error (sessionFailure (.fault .binaryOversized))
          ∧ (run world).sent = [])
      ∧ (plan.image.length < 0x100000000 → ∃ session last result,
        (openSession plan).2 = .ok session
          ∧ Talk.loop (answers world.port session.options.maxRetries.toNat).length
            { session, port := world.port } = some (last, result)
          ∧ (run world).ending = result.mapError Setback.failure
          ∧ (run world).sent = last.port.sent
          ∧ result ≠ .error (.session .noRoom)
          ∧ ((run world).exitCode = 0 ↔ last.session.ended = true
            ∧ ∀ call ∈ last.calls, call = .ok ())
          ∧ ((run world).exitCode = 0 → (run world).sent = last.handed.flatten
            ∧ last.handed.getLast? = some session.jumpDatagram.frames.flatten)) := by
  have hrun := h.run_eq
  constructor
  · intro hsize
    rw [openSession_oversized hsize] at hrun
    exact Prod.mk.inj hrun
  intro hsize
  have hsession := openSession_opened h.image_ne_nil hsize
  have hengaged := opened_engaged plan
  generalize Session.opened receiveCapacity plan.image (options plan.node plan.path) = session
    at hsession hengaged
  have hoptions := hengaged.options_eq
  rw [hsession] at hrun
  obtain ⟨hending, hsent⟩ := Prod.mk.inj hrun
  have hsound : Talk.Sound (options plan.node plan.path) { session, port := world.port } :=
    ⟨hengaged, nofun, h.sent_eq⟩
  have hanswers : answers world.port session.options.maxRetries.toNat
      = world.port.left readSize
        ++ List.replicate (session.options.maxRetries.toNat + 1) (.error world.port.exhausted) := by
    rw [Script.left_of_rest_nil h.rest_eq, answers]
  obtain ⟨⟨last, result⟩, hloop⟩ := Option.isSome_iff_exists.1 hsound.loop_ends
  rw [← hoptions, ← List.length_replicate (n := session.options.maxRetries.toNat + 1)
    (a := (.error world.port.exhausted : Except Failure Bytes)), ← List.length_append, ← hanswers]
    at hloop
  -- The loop tells the truth, and the program ends as the loop does.
  obtain ⟨hhonest, hroom, hwhole, hjump⟩ := hsound.loop hloop
  obtain ⟨hresult, htaken⟩ := Talk.loop_converse hanswers hloop
  rw [← hending] at hresult
  rw [← hsent] at htaken
  refine ⟨session, last, result, hsession, hloop, hresult, htaken, hroom, ?_, fun hexit => ?_⟩
  · rw [exitCode_eq_zero, hresult, mapError_eq_ok]
    exact hhonest
  · rw [exitCode_eq_zero, hresult, mapError_eq_ok] at hexit
    rw [htaken, Session.jumpDatagram, hoptions]
    exact ⟨hwhole hexit, hjump hexit⟩

/-- Four bytes for node 7, announced by a session. -/
def acceptedSession : Session :=
  .opened receiveCapacity [0x01, 0x02, 0x03, 0x04] { target := some 7, id := .ofBytes [0x61] }

/-- The node takes them. Its first answer comes late and in pieces, and the port takes what it is
given bit by bit. -/
def acceptedWorld : World where
  arguments := ["loader", "--node-id", "7", "a"]
  files := { entries := [({ names := ["a"] }, .file [0x01, 0x02, 0x03, 0x04])] }
  ports := .ok ["port"]
  port :=
    let announced := (acceptedSession.manifestDatagram.answer (.ok ())).frames.flatten
    let taken := ((acceptedSession.chunkDatagram 0).answer (.ok ())).frames.flatten
    { exhausted := .custom .timedOut "no answer"
      reads := [.fails (.custom .timedOut "no answer"), .gives (announced.take 200), .nothing,
        .gives (announced.drop 200), .gives taken]
      writes := [.ok 100, .error (.custom .interrupted "try again"), .ok 1] }

def acceptedPlan : Plan where
  path := "a"
  image := [0x01, 0x02, 0x03, 0x04]
  opening := { name := "port", baud := Arguments.defaultBaud }
  node := some 7

theorem names_acceptedPath : "a".splitOn "/" = ["a"] := by cbv

theorem acceptedWorld_opens : acceptedWorld.Opens acceptedPlan where
  path_eq := by with_unfolding_all rfl
  image_eq := by
    show acceptedWorld.files.read "a" = _
    rw [Files.read, Files.resolve, names_acceptedPath]
    with_unfolding_all rfl
  image_ne_nil := by decide
  port_eq := ⟨["port"], rfl, by with_unfolding_all rfl⟩
  baud_eq := by with_unfolding_all rfl
  node_eq := by with_unfolding_all rfl
  accepted := rfl
  rest_eq := rfl
  sent_eq := rfl

theorem options_acceptedPlan : options acceptedPlan.node acceptedPlan.path
    = { target := some 7, id := .ofBytes [0x61] } := by
  have hparts : "a".splitOn "." = ["a"] := by cbv
  have hbytes : "a".toUTF8.toList = [0x61] := by with_unfolding_all rfl
  have hlabel : Path.label "a" = "a" := by
    rw [Path.label, Path.fileName?, Path.parts, names_acceptedPath]
    show Path.stem "a" = "a"
    rw [Path.stem, hparts]
    rfl
  show options (some 7) "a" = _
  rw [options, hlabel, FirmwareId.ofLabel, hbytes]

theorem exit_tells_truth_accepted :
    acceptedWorld.Opens acceptedPlan ∧ (run acceptedWorld).exitCode = 0
      ∧ ∃ buffers : List Bytes, buffers.length = 4 ∧ (run acceptedWorld).sent = buffers.flatten
        ∧ buffers.getLast? = some acceptedSession.jumpDatagram.frames.flatten := by
  obtain ⟨session, last, result, hsession, hloop, -, -, -, hexit, hwhole⟩ :=
    (exit_tells_truth acceptedWorld_opens).2 (by decide)
  have hopened := openSession_opened acceptedWorld_opens.image_ne_nil (by decide)
  rw [options_acceptedPlan] at hopened
  obtain rfl : session = acceptedSession := Except.ok.inj (hsession.symm.trans hopened)
  have hends : (Talk.loop (answers acceptedWorld.port 5).length
      { session := acceptedSession, port := acceptedWorld.port }).map (fun ending =>
        (ending.1.session.ended, ending.1.calls.all (·.toOption.isSome), ending.1.handed.length))
      = some (true, true, 4) := by
    decide +kernel
  rw [show acceptedSession.options.maxRetries.toNat = 5 from rfl] at hloop
  rw [hloop] at hends
  obtain ⟨hended, hcalls, hcount⟩ : last.session.ended = true
      ∧ last.calls.all (·.toOption.isSome) = true ∧ last.handed.length = 4 := by
    simpa using hends
  have hzero : (run acceptedWorld).exitCode = 0 := by
    refine hexit.2 ⟨hended, fun call hmem => ?_⟩
    have hok := List.all_eq_true.1 hcalls call hmem
    cases call with
    | ok => rfl
    | error failure => cases hok
  exact ⟨acceptedWorld_opens, hzero, last.handed, hcount, hwhole hzero⟩

end Loader

end Reflash
