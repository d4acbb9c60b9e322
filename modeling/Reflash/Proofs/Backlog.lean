/-
  Reflash.Proofs.Backlog

  How much a session leaves in its receive buffer. It looks at the buffer pass by pass,
  and a pass that is not the last takes a whole frame off it, whatever the frame holds;
  so there are no more passes than frames fit into what is there, and one. What a session
  that goes on waiting leaves begins with a start marker and is less than a frame. A
  program that hands over no more than there is room for beside that never finds the
  buffer full, however often it lets time run out in between.
-/
import Reflash.Proofs.Patience

namespace Reflash

namespace Session

variable {session next last : Session}

/-! ## Passes -/

/-- What one look at the inbox comes to: the result of the loop, or a session that looks again. -/
inductive Pass where
  | finished (result : Except SessionError Session)
  | again (next : Session)

/-- One look at the inbox. -/
def pass (session : Session) : Pass :=
  if session.dropNoise.inbox.length < Packet.frameSize then .finished (.ok session.dropNoise)
  else match session.dropNoise.takeFrame with
    | .error error => .finished (.error error)
    | .ok next => if next.stage = .done then .finished (.ok next) else .again next

/-- The result within `limit` passes, `none` when there is none yet. -/
def passes : Nat → Session → Option (Except SessionError Session)
  | 0, _ => none
  | limit + 1, session =>
    match session.pass with
    | .finished result => some result
    | .again next => passes limit next

/-- A pass that is the last gives the result. -/
theorem drain_of_finished {result : Except SessionError Session}
    (h : session.pass = .finished result) : session.drain = result := by
  rw [pass] at h
  rw [drain_eq]
  split at h
  next hshort =>
    rw [if_pos hshort]
    exact Pass.finished.inj h
  next hframe =>
    rw [if_neg hframe]
    split at h
    next error herror =>
      rw [herror]
      exact Pass.finished.inj h
    next next hnext =>
      rw [hnext]
      split at h
      next hdone => exact (if_pos hdone).trans (Pass.finished.inj h)
      next => cases h

/-- A pass that is not the last has taken a frame, and the session still waits. -/
theorem again_takes (h : session.pass = .again next) :
    ¬session.dropNoise.inbox.length < Packet.frameSize
      ∧ session.dropNoise.takeFrame = .ok next ∧ next.stage ≠ .done := by
  rw [pass] at h
  split at h
  next => cases h
  next hframe =>
    split at h
    next => cases h
    next next' hnext =>
      split at h
      next => cases h
      next hmore =>
        cases h
        exact ⟨hframe, hnext, hmore⟩

theorem drain_of_again (h : session.pass = .again next) : session.drain = next.drain := by
  obtain ⟨hframe, hnext, hmore⟩ := again_takes h
  rw [drain_eq, if_neg hframe, hnext]
  exact if_neg hmore

/-- Whatever a frame holds, exactly its bytes come off the inbox. -/
theorem inbox_takeFrame_marked {body rest : Bytes} (hbody : body.length = 141)
    (hinbox : session.inbox = Packet.startMarker :: body ++ rest)
    (hnext : session.takeFrame = .ok next) : next.inbox = rest := by
  rw [takeFrame_marked hbody hinbox] at hnext
  exact inbox_actOn hnext

/-- A pass that is not the last shortens the inbox by a frame, and by the noise in front of it. -/
theorem length_inbox_again (h : session.pass = .again next) :
    next.inbox.length + 142 ≤ session.inbox.length := by
  obtain ⟨hframe, hnext, -⟩ := again_takes h
  obtain ⟨body, rest, hbody, hinbox⟩ := dropNoise_marked hframe
  have hlength := length_inbox_dropNoise_le session
  rw [hinbox, List.length_append, List.length_cons, hbody] at hlength
  rw [inbox_takeFrame_marked hbody hinbox hnext]
  omega

/-- The loop ends after as many passes as frames fit into the inbox, and one. -/
theorem passes_eq {limit : Nat} (h : session.inbox.length < 142 * limit) :
    passes limit session = some session.drain := by
  -- By induction on the limit: a pass that goes on leaves a frame less to look at.
  induction limit generalizing session with
  | zero => exact absurd h (Nat.not_lt_zero _)
  | succ limit ih =>
    rw [passes]
    cases hpass : session.pass with
    | finished result => rw [drain_of_finished hpass]
    | again next =>
      have hshorter := length_inbox_again hpass
      rw [drain_of_again hpass]
      exact ih (by omega)

/-! ## What is left -/

/-- Nothing waits in the inbox, or the beginning of a frame. -/
def Cleared (session : Session) : Prop :=
  session.inbox = []
    ∨ session.inbox.head? = some Packet.startMarker ∧ session.inbox.length ≤ 141

theorem Cleared.length_le (h : session.Cleared) : session.inbox.length ≤ 141 := by
  rcases h with hnil | ⟨-, hlength⟩
  · rw [hnil]
    exact Nat.zero_le _
  · exact hlength

/-- What is left behind noise begins with a start marker. -/
theorem dropNoise_cleared (h : session.dropNoise.inbox.length < Packet.frameSize) :
    session.dropNoise.Cleared := by
  cases hinbox : session.dropNoise.inbox with
  | nil => exact .inl hinbox
  | cons byte bytes =>
    refine .inr ⟨?_, Nat.le_of_lt_succ h⟩
    rw [hinbox, List.head?_cons, eq_startMarker_of_dropNoise hinbox]

/-- A session that has looked at its inbox and goes on waiting has taken every frame off it. -/
theorem drain_cleared (hlast : session.drain = .ok last) (hmore : last.stage ≠ .done) :
    last.Cleared := by
  -- By induction on the passes, of which only the last stops for want of a frame.
  induction session using drain.induct with
  | case1 session hshort =>
    rw [drain_eq, if_pos hshort] at hlast
    cases hlast
    exact dropNoise_cleared hshort
  | case2 session hframe error herror =>
    rw [drain_eq, if_neg hframe, herror] at hlast
    cases hlast
  | case3 session hframe next hnext hend =>
    rw [drain_eq, if_neg hframe, hnext] at hlast
    obtain rfl : next = last := Except.ok.inj ((if_pos hend).symm.trans hlast)
    exact absurd hend hmore
  | case4 session hframe next hnext hgoes ih =>
    rw [drain_eq, if_neg hframe, hnext] at hlast
    exact ih ((if_neg hgoes).symm.trans hlast)

/-! ## A buffer that is never full -/

theorem retransmit_ne_noRoom (session : Session) : session.retransmit ≠ .error .noRoom := by
  rw [retransmit_eq]
  split
  · rintro ⟨⟩
  · split <;> rintro ⟨⟩

theorem actOn_ne_noRoom (session : Session) (receipt : Receipt) :
    session.actOn receipt ≠ .error .noRoom := by
  rw [actOn]
  split
  next error herror =>
    cases receipt with
    | delivered packet datagram =>
      rw [acknowledgement?] at herror
      split at herror
      next => cases herror
      next =>
        cases herror
        rintro ⟨⟩
    | _ => cases herror
  next => rintro ⟨⟩
  next ack _ =>
    rw [answer]
    cases session.judge ack with
    | tryAgain => exact session.retransmit_ne_noRoom
    | stale | accepted | alreadyApplied | rejected => rintro ⟨⟩

theorem drain_ne_noRoom (session : Session) : session.drain ≠ .error .noRoom := by
  induction session using drain.induct with
  | case1 session hshort =>
    rw [drain_eq, if_pos hshort]
    rintro ⟨⟩
  | case2 session hframe error herror =>
    rw [drain_eq, if_neg hframe, herror]
    exact fun heq => actOn_ne_noRoom _ _ (herror.trans heq)
  | case3 session hframe next hnext hend =>
    rw [drain_eq, if_neg hframe, hnext]
    show (if _ then _ else _) ≠ _
    rw [if_pos hend]
    rintro ⟨⟩
  | case4 session hframe next hnext hgoes ih =>
    rw [drain_eq, if_neg hframe, hnext]
    show (if _ then _ else _) ≠ _
    rw [if_neg hgoes]
    exact ih

/-- What is handed over in a call. -/
def Call.incoming? : Call → Option Bytes
  | .feed incoming => some incoming
  | _ => none

/-- Calls of a program that leaves room for the beginning of a frame: it begins with no bytes, then
hands over so many at a time, and none once the session has ended. -/
structure Paced (plan : Session) (calls : List Call) : Prop where
  first : ∀ incoming ∈ (calls.filterMap Call.incoming?).head?, incoming = []
  later : ∀ incoming ∈ (calls.filterMap Call.incoming?).tail,
    incoming.length ≤ plan.endpoint.link.capacity - 141
  under_way : ∀ n incoming, calls[n]? = some (.feed incoming) →
    ∀ session, plan.performAll (calls.take n) = .ok session → session.ended = false

/-- A session with room for the next call, unless it has ended. -/
structure Roomy (session : Session) : Prop where
  fresh : session.stage = .start → session.inbox = []
  cleared : session.stage ≠ .done → session.inbox.length ≤ 141

theorem ended_eq_false_iff : session.ended = false ↔ session.stage ≠ .done := by
  rw [ended, beq_eq_false_iff_ne]

theorem new_roomy {capacity : Nat} {firmware : Bytes} {options : SessionOptions}
    (hnew : new capacity firmware options = .ok session) :
    session.Roomy ∧ session.endpoint.link.capacity = capacity := by
  rw [new] at hnew
  split at hnew
  · cases hnew
  split at hnew
  · cases hnew
  split at hnew
  · cases hnew
  cases hnew
  exact ⟨⟨fun _ => rfl, fun _ => Nat.zero_le _⟩, rfl⟩

/-- Bytes for which there is room beside the beginning of a frame are taken in. -/
theorem Roomy.feed (h : session.Roomy) {incoming : Bytes} (hmore : session.stage ≠ .done)
    (hfirst : session.stage = .start → incoming = [])
    (hroom : incoming.length + 141 ≤ session.endpoint.link.capacity) :
    session.feed incoming ≠ .error .noRoom
      ∧ ∀ next, session.feed incoming = .ok next → next.Roomy ∧ next.stage ≠ .start
        ∧ next.endpoint.link.capacity = session.endpoint.link.capacity := by
  have hlength := h.cleared hmore
  by_cases hstart : session.stage = .start
  · have hfeed : session.feed incoming = .ok { (session.hear incoming).queue
        session.manifestDatagram with stage := .awaitingManifest } := by
      rw [Session.feed, if_neg (by omega)]
      dsimp only
      rw [show (session.withInbox (session.inbox ++ incoming)).stage = .start from hstart]
      rfl
    have hwaits : SessionStage.awaitingManifest ≠ .start := by decide
    have hinbox : (session.inbox ++ incoming).length ≤ 141 := by
      rw [h.fresh hstart, hfirst hstart]
      exact Nat.zero_le _
    rw [hfeed]
    constructor
    · rintro ⟨⟩
    · rintro _ ⟨rfl⟩
      exact ⟨⟨fun heq => absurd heq hwaits, fun _ => hinbox⟩, hwaits, rfl⟩
  · rw [feed_eq_drain hstart hmore (by omega)]
    refine ⟨drain_ne_noRoom _, fun next hnext => ?_⟩
    obtain ⟨hnotStart, hcapacity, -⟩ :=
      drain_room (show (session.hear incoming).stage ≠ .start from hstart) hnext
    exact ⟨⟨fun heq => absurd heq hnotStart, fun hwaits => (drain_cleared hnext hwaits).length_le⟩,
      hnotStart, hcapacity⟩

/-- A time out empties the inbox of a session that waits. -/
theorem Roomy.timeOut (h : session.Roomy) :
    session.timeOut ≠ .error .noRoom
      ∧ ∀ next, session.timeOut = .ok next → next.Roomy
        ∧ (next.stage = .start → session.stage = .start)
        ∧ next.endpoint.link.capacity = session.endpoint.link.capacity := by
  by_cases hidle : session.stage = .start ∨ session.stage = .done
  · have hstays : session.timeOut = .ok session := by
      rw [Session.timeOut]
      rcases hidle with hstage | hstage <;> rw [hstage]
    rw [hstays]
    constructor
    · rintro ⟨⟩
    · rintro _ ⟨rfl⟩
      exact ⟨h, id, rfl⟩
  · obtain ⟨hstart, hdone⟩ := not_or.1 hidle
    rw [timeOut_waiting hstart hdone]
    refine ⟨retransmit_ne_noRoom _, fun next hnext => ?_⟩
    obtain ⟨rfl, -⟩ := retransmit_eq_ok hnext
    exact ⟨⟨fun _ => rfl, fun _ => Nat.zero_le _⟩, id, rfl⟩

theorem Roomy.collect (h : session.Roomy) :
    session.collect.2.Roomy ∧ session.collect.2.stage = session.stage
      ∧ session.collect.2.endpoint = session.endpoint := by
  rw [Session.collect]
  split
  · exact ⟨⟨h.fresh, h.cleared⟩, rfl, rfl⟩
  · exact ⟨h, rfl, rfl⟩

/-- A call that leaves room for the beginning of a frame finds room, and so does the next. -/
theorem Roomy.perform (h : session.Roomy) (call : Call)
    (hroom : ∀ incoming, call = .feed incoming → session.stage ≠ .done
      ∧ (session.stage = .start → incoming = [])
      ∧ incoming.length + 141 ≤ session.endpoint.link.capacity) :
    session.perform call ≠ .error .noRoom
      ∧ ∀ next, session.perform call = .ok next → next.Roomy
        ∧ (next.stage = .start → session.stage = .start ∧ call.incoming? = none)
        ∧ next.endpoint.link.capacity = session.endpoint.link.capacity := by
  cases call with
  | feed incoming =>
    obtain ⟨hmore, hfirst, hfits⟩ := hroom incoming rfl
    obtain ⟨hfound, hnext⟩ := h.feed hmore hfirst hfits
    refine ⟨hfound, fun next hok => ?_⟩
    obtain ⟨hroomy, hnotStart, hcapacity⟩ := hnext next hok
    exact ⟨hroomy, fun heq => absurd heq hnotStart, hcapacity⟩
  | timeOut =>
    obtain ⟨hfound, hnext⟩ := h.timeOut
    refine ⟨hfound, fun next hok => ?_⟩
    obtain ⟨hroomy, hstart, hcapacity⟩ := hnext next hok
    exact ⟨hroomy, fun heq => ⟨hstart heq, rfl⟩, hcapacity⟩
  | collect =>
    obtain ⟨hroomy, hstage, hendpoint⟩ := h.collect
    constructor
    · rintro ⟨⟩
    · rintro _ ⟨rfl⟩
      exact ⟨hroomy, fun heq => ⟨hstage ▸ heq, rfl⟩, by rw [hendpoint]⟩

/-- Calls that leave room for the beginning of a frame find room, one after the other. -/
theorem Roomy.performAll {calls : List Call} (h : session.Roomy)
    (hcapacity : 141 ≤ session.endpoint.link.capacity)
    (hfirst : session.stage = .start →
      ∀ incoming ∈ (calls.filterMap Call.incoming?).head?, incoming = [])
    (hlater : ∀ incoming ∈ calls.filterMap Call.incoming?,
      incoming.length ≤ session.endpoint.link.capacity - 141)
    (hunder : ∀ n incoming, calls[n]? = some (.feed incoming) →
      ∀ next, session.performAll (calls.take n) = .ok next → next.ended = false) :
    session.performAll calls ≠ .error .noRoom := by
  -- By induction on the calls; the stage tells whether the first bytes are still to come.
  induction calls generalizing session with
  | nil => rintro ⟨⟩
  | cons call calls ih =>
    obtain ⟨hfound, hnext⟩ := h.perform call (by
      rintro incoming rfl
      refine ⟨ended_eq_false_iff.1 (hunder 0 incoming rfl session rfl),
        fun hstart => hfirst hstart incoming rfl, ?_⟩
      have hfits := hlater incoming List.mem_cons_self
      omega)
    cases hcall : session.perform call with
    | error error =>
      rw [Session.performAll, List.foldlM_cons, hcall]
      exact fun heq => hfound (hcall.trans heq)
    | ok next =>
      obtain ⟨hroomy, hstart, hsame⟩ := hnext next hcall
      rw [performAll_cons hcall]
      refine ih hroomy (hsame ▸ hcapacity) ?_ ?_ ?_
      · intro heq
        obtain ⟨hbefore, hnone⟩ := hstart heq
        have hhead := hfirst hbefore
        rwa [List.filterMap_cons_none hnone] at hhead
      · intro incoming hmem
        rw [hsame]
        refine hlater incoming ?_
        rw [List.mem_filterMap] at hmem ⊢
        obtain ⟨other, hother, heq⟩ := hmem
        exact ⟨other, List.mem_cons_of_mem _ hother, heq⟩
      · intro n incoming hcalls last hlast
        refine hunder (n + 1) incoming hcalls last ?_
        rw [List.take_succ_cons, performAll_cons hcall]
        exact hlast

/-- A session that is handed bytes while it waits always comes to a result, after no more passes
than frames fit into its inbox and one. If it goes on waiting, what it leaves begins with a start
marker and is less than a frame. So a program that makes its first call without bytes, and then
hands over no more than there is room for beside such a rest, never finds the buffer full, whatever
the bytes are and however often time runs out. -/
theorem leaves_room :
    (∀ (session : Session) (incoming : Bytes), session.stage ≠ .start → session.stage ≠ .done →
      passes ((session.inbox.length + incoming.length) / 142 + 1) (session.hear incoming)
          = some (session.hear incoming).drain
        ∧ session.feed incoming
          = (if incoming.length + session.inbox.length ≤ session.endpoint.link.capacity
            then (session.hear incoming).drain else .error .noRoom)
        ∧ ∀ next, session.feed incoming = .ok next → next.stage ≠ .done → next.inbox = []
          ∨ next.inbox.head? = some Packet.startMarker ∧ next.inbox.length ≤ 141)
    ∧ ∀ (capacity : Nat) (firmware : Bytes) (options : SessionOptions) (plan : Session)
      (calls : List Call), new capacity firmware options = .ok plan → 142 ≤ capacity →
        plan.Paced calls → plan.performAll calls ≠ .error .noRoom := by
  constructor
  · intro session incoming hstart hdone
    have hfeed : session.feed incoming
        = (if incoming.length + session.inbox.length ≤ session.endpoint.link.capacity
          then (session.hear incoming).drain else .error .noRoom) := by
      split
      next hroom => exact feed_eq_drain hstart hdone hroom
      next hfull => rw [Session.feed, if_pos (Nat.lt_of_not_le hfull)]
    refine ⟨passes_eq ?_, hfeed, fun next hnext hmore => ?_⟩
    · show (session.inbox ++ incoming).length < _
      rw [List.length_append]
      omega
    · rw [hfeed] at hnext
      split at hnext
      · exact drain_cleared hnext hmore
      · cases hnext
  · rintro capacity firmware options plan calls hnew hcapacity ⟨hfirst, hlater, hunder⟩
    obtain ⟨hroomy, rfl⟩ := new_roomy hnew
    refine hroomy.performAll (by omega) (fun _ => hfirst) ?_ hunder
    intro incoming hmem
    cases hfed : calls.filterMap Call.incoming? with
    | nil =>
      rw [hfed] at hmem
      cases hmem
    | cons first others =>
      rw [hfed] at hmem hfirst hlater
      rcases List.mem_cons.1 hmem with rfl | hmem
      · rw [hfirst incoming rfl]
        exact Nat.zero_le _
      · exact hlater incoming hmem

/-- The announcement of a small image. The answer comes in two pieces, the first as long as there is
room for beside the beginning of a frame, and time runs out before it and after it. -/
def slowCalls : List Call :=
  [.timeOut, .feed [], .collect, .timeOut, .feed (noisyAnswer.take 159),
    .feed (noisyAnswer.drop 159), .timeOut]

theorem leaves_room_slow :
    passes 3 (announced.hear noisyAnswer) = some (announced.hear noisyAnswer).drain
      ∧ small.Paced slowCalls ∧ small.performAll slowCalls ≠ .error .noRoom
      ∧ (small.performAll slowCalls).toOption.map (·.stage) = some (.awaitingChunk 0) := by
  have hopen : ∀ n < slowCalls.length,
      (small.performAll (slowCalls.take n)).toOption.map ended = some false := by
    decide +kernel
  have hpaced : small.Paced slowCalls := by
    refine ⟨?_, by decide +kernel, fun n incoming hcall session hsession => ?_⟩
    · rintro _ ⟨rfl⟩
      rfl
    · have hended := hopen n (List.getElem?_eq_some_iff.1 hcall).1
      rw [hsession] at hended
      exact Option.some.inj hended
  have hpasses := (leaves_room.1 announced noisyAnswer (by decide) (by decide)).1
  rw [show (announced.inbox.length + noisyAnswer.length) / 142 + 1 = 3 by decide +kernel]
    at hpasses
  exact ⟨hpasses, hpaced,
    leaves_room.2 300 small.firmware small.options small slowCalls rfl (by decide) hpaced,
    by decide +kernel⟩

end Session

end Reflash
