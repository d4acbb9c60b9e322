/-
  Reflash.Proofs.Recovery

  An update over a lossy link. Between two exchanges session and node are linked: the
  session stands at a datagram that the node has not taken yet, or at the one that it has
  taken last and of which the answer was lost. Every exchange keeps them linked, and one
  of which the answer comes back moves the session on, so that bounded loss is made good.
-/
import Reflash.Proofs.Delivery
import Reflash.Proofs.Exchange

namespace Reflash

/-! ## Session and node -/

/-- A session and a node before an update. -/
structure Pairing (g : Geometry) where
  firmware : Bytes
  options : SessionOptions
  /-- Bytes of room for what the session receives. -/
  inbox : Nat
  layout : Layout
  config : NodeConfig := {}
  /-- Bytes of room on the node's link, each way. -/
  room : Nat
  device : Device g := {}

namespace Pairing

variable {g : Geometry}

/-- The session, which has made its announcement due. -/
def session (pairing : Pairing g) : Session :=
  .opened pairing.inbox pairing.firmware pairing.options

/-- The two before the first exchange: the node has just adopted its layout. -/
def start (pairing : Pairing g) : Exchange g where
  session := pairing.session
  node := {
    endpoint := { link := { capacity := pairing.room } }
    installer := .ready pairing.layout .idle
    config := pairing.config }
  device := pairing.device

/-- The update can be carried out if nothing is lost. -/
structure Fits (pairing : Pairing g) : Prop where
  usable : pairing.layout.Usable g
  paged : pairing.layout.Paged g
  /-- A chunk is a whole number of words, and so of writes. -/
  word_writes : g.writeSize ∣ 4
  valid : pairing.options.Valid
  firmware_pos : 0 < pairing.firmware.length
  firmware_lt : pairing.firmware.length < 0x100000000
  firmware_le : pairing.firmware.length ≤ pairing.layout.regionSize
  addressed : pairing.config.addressedElsewhere pairing.options.target = false
  /-- The session has room for an answer. -/
  inbox_room : 2 * Packet.frameSize ≤ pairing.inbox
  /-- The node has room for the frames of a chunk. -/
  link_room : (Datagram.packetsFor pairing.options.chunkSize + 1) * Packet.frameSize ≤ pairing.room
  glitch_eq : pairing.device.flash.glitch = none
  fault_eq : pairing.device.flash.fault = none
  jumper_eq : pairing.device.jumper = {}

variable {pairing : Pairing g}

theorem Fits.feasible (h : pairing.Fits) : pairing.session.Feasible :=
  ⟨h.valid, h.firmware_pos, h.firmware_lt⟩

theorem Fits.addressed_datagramAt (h : pairing.Fits) (k : Nat) :
    pairing.config.addressedElsewhere (pairing.session.datagramAt k).header.target = false := by
  rw [Session.target_datagramAt h.feasible]
  exact h.addressed

theorem Fits.room_datagramAt (h : pairing.Fits) (k : Nat) :
    (pairing.session.datagramAt k).packetCount * Packet.frameSize ≤ pairing.room :=
  Nat.le_trans (Nat.mul_le_mul_right _ (Session.packetCount_datagramAt_le h.feasible k))
    h.link_room

/-- Between two exchanges the session stands at datagram `k`. The node has at most a part of it
on its way, and has taken all before it; it has taken this one too only if the session is about
to send it again. -/
structure Linked (pairing : Pairing g) (exchange : Exchange g) (k : Nat) : Prop where
  stands : pairing.session.Stands exchange.session k
  due : exchange.session.due = true
  node : ∃ assembly installer taken,
    exchange.node.Holds ⟨pairing.room, [], []⟩ assembly installer pairing.config
      ∧ assembly.Partial (pairing.session.datagramAt k)
      ∧ pairing.session.Followed pairing.layout pairing.device.flash taken installer
        exchange.device
      ∧ (taken = k ∨ taken = k + 1 ∧ 0 < exchange.session.retries.toNat)

theorem linked_start (h : pairing.Fits) : pairing.Linked pairing.start 0 := by
  refine ⟨Session.stands_opened _ _ _, rfl, none, _, 0, ⟨rfl, rfl, rfl, rfl⟩, .inl rfl,
    ⟨⟨.idle, rfl, Session.phase_waiting h.feasible h.word_writes h.glitch_eq⟩, h.jumper_eq⟩,
    .inl rfl⟩

/-! ## One exchange -/

/-- What the node has after an exchange: nothing of datagram `k` but a part, and the first `taken`
datagrams taken. -/
structure Reached (pairing : Pairing g) (exchange : Exchange g) (k taken : Nat) : Prop where
  stands : pairing.session.Stands exchange.session k
  node : ∃ assembly installer, exchange.node.Holds ⟨pairing.room, [], []⟩ assembly installer
      pairing.config
    ∧ assembly.Partial (pairing.session.datagramAt k)
    ∧ pairing.session.Followed pairing.layout pairing.device.flash taken installer
      exchange.device

/-- Without an answer the datagram is due again. -/
theorem Reached.conclude_nil {exchange : Exchange g} {k taken : Nat}
    (h : pairing.Reached exchange k taken) (hk : k ≤ pairing.session.chunkCount)
    (htaken : taken = k ∨ taken = k + 1)
    (hretries : exchange.session.retries.toNat < pairing.options.maxRetries.toNat) :
    ∃ next, exchange.conclude [] = .ok next ∧ pairing.Linked next k
      ∧ next.session.retries.toNat = exchange.session.retries.toNat + 1 := by
  obtain ⟨session, htimeOut, hstands, hdue, hcount⟩ := h.stands.timeOut hk hretries
  obtain ⟨assembly, installer, hnode, hpartial, hfollowed⟩ := h.node
  have hconclude : exchange.conclude [] = .ok { exchange with session } := by
    show exchange.session.timeOut.map _ = _
    rw [htimeOut]
    rfl
  refine ⟨_, hconclude, ⟨hstands, hdue, assembly, installer, taken, hnode, hpartial, hfollowed, ?_⟩,
    hcount⟩
  rcases htaken with heq | heq
  · exact .inl heq
  · exact .inr ⟨heq, Nat.lt_of_lt_of_eq (Nat.succ_pos _) hcount.symm⟩

/-- An answer that the datagram has been taken moves the session on. -/
theorem Reached.conclude_answer (hfits : pairing.Fits) {exchange : Exchange g} {k : Nat}
    (h : pairing.Reached exchange k (k + 1)) (hk : k ≤ pairing.session.chunkCount)
    (hnothing : exchange.node.endpoint.assembly = none) {result : Except Fault Unit}
    (hresult : result = .ok ()
      ∨ 0 < exchange.session.retries.toNat
        ∧ ∃ fault, result = .error fault ∧ Session.RefusesCopy k fault) :
    ∃ next, exchange.conclude ((pairing.session.datagramAt k).answer result).frames.flatten
        = .ok next
      ∧ pairing.Linked next (k + 1) ∧ next.session.retries.toNat = 0 := by
  obtain ⟨session, hfeed, hstands, hdue, hcount⟩ := h.stands.feed_answer hk
    (Session.chunkCount_pos hfits.feasible) hfits.inbox_room hresult
  obtain ⟨assembly, installer, hnode, hpartial, hfollowed⟩ := h.node
  obtain rfl := hnode.assembly_eq.symm.trans hnothing
  have hne : ((pairing.session.datagramAt k).answer result).frames.flatten.isEmpty = false := by
    rw [Datagram.flatten_frames_answer]
    rfl
  have hconclude : exchange.conclude
      ((pairing.session.datagramAt k).answer result).frames.flatten
        = .ok { exchange with session } := by
    rw [Exchange.conclude, hne, if_neg Bool.false_ne_true, hfeed]
    rfl
  refine ⟨_, hconclude, ⟨hstands, hdue, none, installer, k + 1, hnode, .inl rfl, hfollowed,
    .inl rfl⟩, ?_⟩
  show session.retries.toNat = 0
  rw [hcount]
  rfl

/-- Either nothing comes back from an exchange, because something was lost, or the answer that
the datagram has been taken. -/
theorem Linked.pass (hfits : pairing.Fits) {exchange : Exchange g} {k : Nat} {round : Round}
    (h : pairing.Linked exchange k) (hk : k ≤ pairing.session.chunkCount)
    (hbusy : exchange.node.Busy round.now) :
    (exchange.pass round).after.session.retries = exchange.session.retries
      ∧ (((exchange.pass round).returned = [] ∧ ¬round.Undisturbed
          ∧ ∃ taken, (taken = k ∨ taken = k + 1)
            ∧ pairing.Reached (exchange.pass round).after k taken)
        ∨ ∃ result, (exchange.pass round).returned
            = ((pairing.session.datagramAt k).answer result).frames.flatten
          ∧ (result = .ok () ∨ 0 < exchange.session.retries.toNat
            ∧ ∃ fault, result = .error fault ∧ Session.RefusesCopy k fault)
          ∧ (exchange.pass round).after.node.endpoint.assembly = none
          ∧ pairing.Reached (exchange.pass round).after k (k + 1)) := by
  have hfeasible := hfits.feasible
  obtain ⟨assembly, installer, taken, hnode, hpartial, hfollowed, htaken⟩ := h.node
  obtain ⟨hnext, hresult⟩ := hfollowed.process hfits.paged hfits.usable hfeasible
    hfits.firmware_le hfits.fault_eq hk (htaken.imp id And.left)
  obtain ⟨delivered, last, hall, hsession, hnode', hlast, hnone, hdevice, hreturned⟩ :=
    Exchange.pass_ensures (Session.datagramAt_whole hfeasible k) h.due h.stands.outgoing_eq hnode
      hpartial hbusy (hfits.addressed_datagramAt k) (hfits.room_datagramAt k)
  have hstands : pairing.session.Stands (exchange.pass round).after.session k := by
    rw [hsession]
    exact ⟨⟨h.stands.firmware_eq, h.stands.options_eq, h.stands.inbox_eq, h.stands.stage_eq,
      h.stands.outgoing_eq⟩, h.stands.capacity_eq, h.stands.assembly_eq⟩
  refine ⟨by rw [hsession], ?_⟩
  cases delivered with
  | false =>
    -- Frames were lost, so the node answers nothing.
    exact .inl ⟨hreturned, fun hround => Bool.false_ne_true (hall hround.1), taken,
      htaken.imp id And.left, hstands, last, _, hnode', hlast, by rw [hdevice]; exact hfollowed⟩
  | true =>
    have hreached : pairing.Reached (exchange.pass round).after k (k + 1) :=
      ⟨hstands, last, _, hnode', hlast, by rw [hdevice]; exact hnext⟩
    rw [Bool.true_and] at hreturned
    cases hanswered : round.answered with
    | false =>
      rw [hanswered] at hreturned
      refine .inl ⟨hreturned, fun hround => ?_, k + 1, .inr rfl, hreached⟩
      exact Bool.false_ne_true (hanswered.symm.trans hround.2)
    | true =>
      rw [hanswered] at hreturned
      refine .inr ⟨_, hreturned, hresult.imp id fun hrefused => ⟨?_, hrefused.2⟩,
        hnode'.assembly_eq.trans (hnone rfl), hreached⟩
      -- A copy is sent only after a retry.
      exact (htaken.resolve_left fun heq =>
        Nat.ne_of_lt k.lt_succ_self (heq.symm.trans hrefused.1)).2

/-- Any exchange keeps session and node linked. When an answer comes back the session moves on,
and when none comes the datagram is due again. -/
theorem Linked.step (hfits : pairing.Fits) {exchange : Exchange g} {k : Nat} {round : Round}
    (h : pairing.Linked exchange k) (hk : k ≤ pairing.session.chunkCount)
    (hbusy : exchange.node.Busy round.now)
    (hretries : (exchange.pass round).returned = [] →
      exchange.session.retries.toNat < pairing.options.maxRetries.toNat) :
    ∃ next, (exchange.pass round).after.conclude (exchange.pass round).returned = .ok next
      ∧ ((exchange.pass round).returned = [] ∧ pairing.Linked next k
          ∧ next.session.retries.toNat = exchange.session.retries.toNat + 1
        ∨ (exchange.pass round).returned ≠ [] ∧ pairing.Linked next (k + 1)
          ∧ next.session.retries.toNat = 0) := by
  obtain ⟨hsame, hpass⟩ := h.pass hfits hk hbusy
  rcases hpass with ⟨hlost, -, taken, htaken, hreached⟩
    | ⟨result, hanswer, hresult, hnothing, hreached⟩
  · obtain ⟨next, hconclude, hlinked, hcount⟩ :=
      hreached.conclude_nil hk htaken (by rw [hsame]; exact hretries hlost)
    rw [hsame] at hcount
    rw [hlost]
    exact ⟨next, hconclude, .inl ⟨rfl, hlinked, hcount⟩⟩
  · rw [← hsame] at hresult
    obtain ⟨next, hconclude, hlinked, hcount⟩ :=
      hreached.conclude_answer hfits hk hnothing hresult
    rw [hanswer]
    refine ⟨next, hconclude, .inr ⟨?_, hlinked, hcount⟩⟩
    rw [Datagram.flatten_frames_answer]
    exact List.cons_ne_nil _ _

/-- An exchange of which nothing is lost brings an answer back. -/
theorem Linked.returned_ne_nil (hfits : pairing.Fits) {exchange : Exchange g} {k : Nat}
    {round : Round} (h : pairing.Linked exchange k) (hk : k ≤ pairing.session.chunkCount)
    (hbusy : exchange.node.Busy round.now) (hround : round.Undisturbed) :
    (exchange.pass round).returned ≠ [] := by
  rcases (h.pass hfits hk hbusy).2 with ⟨-, hlost, -⟩ | ⟨result, hanswer, -⟩
  · exact absurd hround hlost
  · rw [hanswer, Datagram.flatten_frames_answer]
    exact List.cons_ne_nil _ _

/-! ## Many exchanges -/

end Pairing

namespace Exchange

variable {g : Geometry}

/-- Exchanges over a lossy link, until the session ends: those that take place, each as it is
before it, and how they end. -/
def playAll : List Round → Exchange g → List (Round × Exchange g) × Except SessionError (Exchange g)
  | [], exchange => ([], .ok exchange)
  | round :: rounds, exchange =>
    if exchange.session.ended then ([], .ok exchange)
    else match (exchange.pass round).after.conclude (exchange.pass round).returned with
      | .error error => ([(round, exchange)], .error error)
      | .ok next =>
        let rest := playAll rounds next
        ((round, exchange) :: rest.1, rest.2)

/-- The error that exchanges ended in, if they did. -/
def failure? : Except SessionError (Exchange g) → Option SessionError
  | .error error => some error
  | .ok _ => none

/-- How many exchanges ended without an answer while the session was in this stage. -/
def losses (stage : SessionStage) (visits : List (Round × Exchange g)) : Nat :=
  visits.countP fun visit =>
    visit.2.session.stage == stage && (visit.2.pass visit.1).returned.isEmpty

theorem playAll_ended {exchange : Exchange g} (h : exchange.session.ended = true)
    (rounds : List Round) : exchange.playAll rounds = ([], .ok exchange) := by
  cases rounds with
  | nil => rfl
  | cons round rounds => rw [playAll, if_pos h]

theorem mem_playAll {exchange : Exchange g} (hended : exchange.session.ended = false)
    (round : Round) (rounds : List Round) :
    (round, exchange) ∈ (exchange.playAll (round :: rounds)).1 := by
  rw [playAll, if_neg (by rw [hended]; exact Bool.false_ne_true)]
  split
  · exact List.mem_cons_self
  · exact List.mem_cons_self

/-- The exchanges that take place are rounds of those given. -/
theorem mem_rounds {rounds : List Round} {exchange : Exchange g} {visit : Round × Exchange g}
    (h : visit ∈ (exchange.playAll rounds).1) : visit.1 ∈ rounds := by
  induction rounds generalizing exchange with
  | nil => exact absurd h List.not_mem_nil
  | cons round rounds ih =>
    rw [playAll] at h
    split at h
    · exact absurd h List.not_mem_nil
    · split at h
      · rw [List.mem_singleton.1 h]
        exact List.mem_cons_self
      · rcases List.mem_cons.1 h with rfl | h
        · exact List.mem_cons_self
        · exact List.mem_cons_of_mem _ (ih h)

theorem losses_pos {exchange : Exchange g} {round : Round} {visits : List (Round × Exchange g)}
    (hmem : (round, exchange) ∈ visits) (hlost : (exchange.pass round).returned = []) :
    0 < losses exchange.session.stage visits := by
  refine List.countP_pos_iff.2 ⟨_, hmem, ?_⟩
  rw [Bool.and_eq_true, List.isEmpty_iff]
  exact ⟨beq_self_eq_true _, hlost⟩

theorem losses_cons_answered {exchange : Exchange g} {round : Round}
    (h : (exchange.pass round).returned ≠ []) (stage : SessionStage)
    (visits : List (Round × Exchange g)) :
    losses stage ((round, exchange) :: visits) = losses stage visits := by
  refine List.countP_cons_of_neg ?_
  rw [Bool.and_eq_true, List.isEmpty_iff]
  exact fun hlost => h hlost.2

theorem losses_cons_lost {exchange : Exchange g} {round : Round}
    (h : (exchange.pass round).returned = []) (visits : List (Round × Exchange g)) :
    losses exchange.session.stage ((round, exchange) :: visits)
      = losses exchange.session.stage visits + 1 := by
  refine List.countP_cons_of_pos ?_
  rw [Bool.and_eq_true, List.isEmpty_iff]
  exact ⟨beq_self_eq_true _, h⟩

theorem losses_cons_le (stage : SessionStage) (visit : Round × Exchange g)
    (visits : List (Round × Exchange g)) :
    losses stage (visit :: visits) ≤ losses stage visits + 1 := by
  rw [losses, List.countP_cons]
  exact Nat.add_le_add_left (by split <;> decide) _

theorem losses_le_cons (stage : SessionStage) (visit : Round × Exchange g)
    (visits : List (Round × Exchange g)) : losses stage visits ≤ losses stage (visit :: visits) :=
  List.Sublist.countP_le (List.sublist_cons_self _ _)

theorem playAll_eq_playOut (rounds : List Round) (exchange : Exchange g) :
    exchange.playAll rounds = exchange.playOut Round.disturbance Round.now rounds := by
  induction rounds generalizing exchange with
  | nil => rfl
  | cons round rounds ih =>
    rw [playAll, playOut]
    simp only [ih]
    rfl

/-- Exchanges at equal intervals run as they are played, but for the exchange in which the jump
request goes out: it is run too, as the last one. -/
theorem run_eq_playAll {interval time : Nat} {rounds : List Round}
    (hspaced : Spaced interval time (rounds.map Round.now)) {exchange last : Exchange g}
    (hlast : (exchange.playAll rounds).2 = .ok last) :
    exchange.run interval (rounds.map Round.disturbance) time
      = match rounds.drop (exchange.playAll rounds).1.length with
        | [] => ((exchange.playAll rounds).1.map fun visit => visit.2.pass visit.1, .limit, last)
        | round :: _ =>
          ((exchange.playAll rounds).1.map (fun visit => visit.2.pass visit.1) ++ [last.pass round],
            .ended, (last.pass round).after) := by
  rw [playAll_eq_playOut] at hlast ⊢
  rw [run_eq_playOut Round.disturbance Round.now hspaced hlast]
  cases rounds.drop (exchange.playOut Round.disturbance Round.now rounds).1.length with
  | nil => rfl
  | cons round rounds => rfl

end Exchange

namespace Pairing

variable {g : Geometry} {pairing : Pairing g}

theorem Linked.ended_eq_false {exchange : Exchange g} {k : Nat} (h : pairing.Linked exchange k)
    (hk : k ≤ pairing.session.chunkCount) : exchange.session.ended = false := by
  rw [← Bool.not_eq_true, h.stands.ended_iff (Nat.le_succ_of_le hk)]
  exact Nat.ne_of_lt (Nat.lt_succ_of_le hk)

/-- The node has not been silent for too long in any of these exchanges. -/
def Busy (pairing : Pairing g) (visits : List (Round × Exchange g)) : Prop :=
  ∀ visit ∈ visits, visit.2.node.silence visit.1.now < pairing.config.timeout

theorem Linked.busy {exchange : Exchange g} {k : Nat} (h : pairing.Linked exchange k)
    {round : Round} {visits : List (Round × Exchange g)} (hbusy : pairing.Busy visits)
    (hmem : (round, exchange) ∈ visits) : exchange.node.Busy round.now := by
  obtain ⟨assembly, installer, taken, hnode, -⟩ := h.node
  rw [Node.Busy, hnode.config_eq]
  exact hbusy _ hmem

/-- The first of several exchanges, before the session has ended. -/
theorem Linked.playAll_cons (hfits : pairing.Fits) {exchange : Exchange g} {k : Nat}
    (h : pairing.Linked exchange k) (hk : k ≤ pairing.session.chunkCount) {round : Round}
    (rounds : List Round) (hbusy : pairing.Busy (exchange.playAll (round :: rounds)).1)
    (hretries : (exchange.pass round).returned = [] →
      exchange.session.retries.toNat < pairing.options.maxRetries.toNat) :
    ∃ next, exchange.playAll (round :: rounds)
        = ((round, exchange) :: (next.playAll rounds).1, (next.playAll rounds).2)
      ∧ ((exchange.pass round).returned = [] ∧ pairing.Linked next k
          ∧ next.session.retries.toNat = exchange.session.retries.toNat + 1
        ∨ (exchange.pass round).returned ≠ [] ∧ pairing.Linked next (k + 1)
          ∧ next.session.retries.toNat = 0) := by
  have hended := h.ended_eq_false hk
  obtain ⟨next, hconclude, hnext⟩ := h.step hfits hk
    (h.busy hbusy (Exchange.mem_playAll hended round rounds)) hretries
  refine ⟨next, ?_, hnext⟩
  rw [Exchange.playAll, if_neg (by rw [hended]; exact Bool.false_ne_true), hconclude]

/-- Any run of exchanges keeps session and node linked, as long as no datagram is lost too often;
and a run that is long enough brings the session to its end. -/
theorem Linked.playAll (hfits : pairing.Fits) (rounds : List Round) {exchange : Exchange g}
    {k : Nat} (h : pairing.Linked exchange k) (hk : k ≤ pairing.session.chunkCount + 1)
    (hbusy : pairing.Busy (exchange.playAll rounds).1)
    (hlosses : ∀ stage, Exchange.losses stage (exchange.playAll rounds).1
      ≤ pairing.options.maxRetries.toNat)
    (hretries : Exchange.losses exchange.session.stage (exchange.playAll rounds).1
      + exchange.session.retries.toNat ≤ pairing.options.maxRetries.toNat) :
    ∃ last k', (exchange.playAll rounds).2 = .ok last ∧ pairing.Linked last k'
      ∧ k' ≤ pairing.session.chunkCount + 1
      ∧ ((pairing.session.chunkCount + 1 - k) * (pairing.options.maxRetries.toNat + 1)
          ≤ rounds.length + exchange.session.retries.toNat →
        k' = pairing.session.chunkCount + 1) := by
  -- The retries a datagram has used and the losses it has still to come never exceed what it may
  -- be sent again, so that no exchange ends the session with an error.
  induction rounds generalizing exchange k with
  | nil =>
    refine ⟨exchange, k, rfl, h, hk, ?_⟩
    intro hlong
    rw [List.length_nil, Nat.zero_add] at hlong
    rcases Nat.eq_or_lt_of_le hk with heq | hlt
    · exact heq
    · have hmore := Nat.le_mul_of_pos_left (pairing.options.maxRetries.toNat + 1)
        (Nat.sub_pos_of_lt hlt)
      omega
  | cons round rounds ih =>
    rcases Nat.eq_or_lt_of_le hk with rfl | hlt
    · rw [Exchange.playAll_ended ((h.stands.ended_iff hk).2 rfl)]
      exact ⟨exchange, _, rfl, h, hk, fun _ => rfl⟩
    have hk := Nat.le_of_lt_succ hlt
    have hmem := Exchange.mem_playAll (h.ended_eq_false hk) round rounds
    obtain ⟨next, hplay, hnext⟩ := h.playAll_cons hfits hk rounds hbusy fun hlost => by
      have hpos := Exchange.losses_pos hmem hlost
      omega
    rw [hplay] at hbusy hlosses hretries ⊢
    have hbusy' := fun visit hmem => hbusy visit (List.mem_cons_of_mem _ hmem)
    have hlosses' := fun stage => Nat.le_trans (Exchange.losses_le_cons stage _ _) (hlosses stage)
    rcases hnext with ⟨hlost, hlinked, hcount⟩ | ⟨hanswered, hlinked, hcount⟩
    · -- The datagram is sent again: one more retry.
      rw [Exchange.losses_cons_lost hlost, h.stands.stage_eq, ← hlinked.stands.stage_eq] at hretries
      obtain ⟨last, k', hend, hlast, hk', hlong⟩ :=
        ih hlinked (Nat.le_of_lt hlt) hbusy' hlosses' (by omega)
      refine ⟨last, k', hend, hlast, hk', fun hrounds => hlong ?_⟩
      rw [List.length_cons] at hrounds
      omega
    · -- The next datagram has all its retries.
      obtain ⟨last, k', hend, hlast, hk', hlong⟩ :=
        ih hlinked hlt hbusy' hlosses' (by rw [hcount]; exact hlosses' _)
      refine ⟨last, k', hend, hlast, hk', fun hrounds => hlong ?_⟩
      rw [List.length_cons, show pairing.session.chunkCount + 1 - k
        = pairing.session.chunkCount + 1 - (k + 1) + 1 from by omega, Nat.succ_mul] at hrounds
      omega

/-- Exchanges of which nothing is lost do not count as losses, whatever the others do. -/
theorem Linked.losses_le (hfits : pairing.Fits) {lossy : Round → Bool} (rounds : List Round)
    (hlossy : ∀ round ∈ rounds, lossy round = false → round.Undisturbed) {exchange : Exchange g}
    {k : Nat} (h : pairing.Linked exchange k) (hk : k ≤ pairing.session.chunkCount + 1)
    (hbusy : pairing.Busy (exchange.playAll rounds).1)
    (hfew : rounds.countP lossy + exchange.session.retries.toNat
      ≤ pairing.options.maxRetries.toNat) (stage : SessionStage) :
    Exchange.losses stage (exchange.playAll rounds).1 ≤ rounds.countP lossy := by
  induction rounds generalizing exchange k with
  | nil => exact Nat.zero_le _
  | cons round rounds ih =>
    rcases Nat.eq_or_lt_of_le hk with rfl | hlt
    · rw [Exchange.playAll_ended ((h.stands.ended_iff hk).2 rfl)]
      exact Nat.zero_le _
    have hk := Nat.le_of_lt_succ hlt
    -- Only a lossy round can leave the session without an answer.
    have hround : (exchange.pass round).returned = [] → lossy round = true := by
      intro hlost
      cases hclean : lossy round with
      | true => rfl
      | false =>
        have hawake := h.busy hbusy (Exchange.mem_playAll (h.ended_eq_false hk) round rounds)
        exact absurd hlost
          (h.returned_ne_nil hfits hk hawake (hlossy round List.mem_cons_self hclean))
    obtain ⟨next, hplay, hnext⟩ := h.playAll_cons hfits hk rounds hbusy fun hlost => by
      rw [List.countP_cons_of_pos (hround hlost)] at hfew
      omega
    rw [hplay] at hbusy ⊢
    have hbusy' := fun visit hmem => hbusy visit (List.mem_cons_of_mem _ hmem)
    have hlossy' := fun round hmem => hlossy round (List.mem_cons_of_mem _ hmem)
    rcases hnext with ⟨hlost, hlinked, hcount⟩ | ⟨hanswered, hlinked, hcount⟩
    · rw [List.countP_cons_of_pos (hround hlost)] at hfew ⊢
      have hrest := ih hlossy' hlinked (Nat.le_of_lt hlt) hbusy' (by omega)
      exact Nat.le_trans (Exchange.losses_cons_le _ _ _) (Nat.add_le_add_right hrest 1)
    · have hcons : rounds.countP lossy ≤ (round :: rounds).countP lossy :=
        (List.sublist_cons_self round rounds).countP_le
      have hrest := ih hlossy' hlinked hlt hbusy' (by omega)
      rw [Exchange.losses_cons_answered hanswered]
      exact Nat.le_trans hrest hcons

/-! ## Recovery -/

/-- The session has ended and the node has installed the image. -/
structure Recovered (pairing : Pairing g) (last : Exchange g) : Prop where
  progress_eq : last.session.progress
    = (pairing.session.chunkCount, pairing.session.chunkCount)
  installer_eq : last.node.installer
    = .ready pairing.layout (.installed pairing.session.manifest)
  slice_eq : last.device.flash.slice pairing.layout.active pairing.firmware.length
    = pairing.firmware
  jumps_eq : last.device.jumper.jumps = []

theorem Linked.recovered (hfits : pairing.Fits) {last : Exchange g}
    (h : pairing.Linked last (pairing.session.chunkCount + 1)) : pairing.Recovered last := by
  obtain ⟨assembly, installer, taken, hnode, hpartial, hfollowed, htaken⟩ := h.node
  have hall : pairing.session.chunkCount < taken := by omega
  have hstage : last.session.stage = .done := h.stands.stage_eq.trans (if_neg (Nat.lt_irrefl _))
  have hcount : last.session.chunkCount = pairing.session.chunkCount :=
    Session.chunkCount_congr h.stands.firmware_eq h.stands.options_eq
  refine ⟨?_, ?_, hfollowed.slice_eq hfits.usable hfits.feasible hall, ?_⟩
  · rw [Session.progress, hstage, hcount]
  · rw [hnode.installer_eq]
    exact (hfollowed.finished hfits.feasible hall).1
  · rw [hfollowed.calm]

/-- Once the jump request comes through, the node jumps to the image, unless that is blank. -/
theorem Linked.jumps_eq (hfits : pairing.Fits) {last : Exchange g}
    (h : pairing.Linked last (pairing.session.chunkCount + 1)) {round : Round}
    (hround : ∀ n, round.through n = true)
    (hbusy : last.node.silence round.now < pairing.config.timeout) :
    (last.pass round).after.device.jumper.jumps
      = if pairing.firmware.all (· == Flash.erasedByte) = true then [] else [.application] := by
  have hfeasible := hfits.feasible
  obtain ⟨assembly, installer, taken, hnode, hpartial, hfollowed, htaken⟩ := h.node
  have hbusy' : last.node.Busy round.now := by
    rw [Node.Busy, hnode.config_eq]
    exact hbusy
  obtain ⟨delivered, -, hall, -, -, -, -, hdevice, -⟩ :=
    Exchange.pass_ensures (Session.datagramAt_whole hfeasible _) h.due h.stands.outgoing_eq hnode
      hpartial hbusy' (hfits.addressed_datagramAt _) (hfits.room_datagramAt _)
  have hjump : pairing.session.datagramAt (pairing.session.chunkCount + 1)
      = pairing.session.jumpDatagram := if_neg (Nat.lt_irrefl _)
  rw [hall hround, cond_true, hjump] at hdevice
  rw [hdevice]
  exact hfollowed.jump hfits.usable hfeasible hfits.firmware_le hfits.fault_eq (by omega)

/-- What comes of any run of exchanges in which bounded losses occur. -/
theorem Fits.playAll (hfits : pairing.Fits) {rounds : List Round}
    (hbusy : pairing.Busy (pairing.start.playAll rounds).1)
    (hlosses : ∀ stage, Exchange.losses stage (pairing.start.playAll rounds).1
      ≤ pairing.options.maxRetries.toNat) :
    ∃ last, (pairing.start.playAll rounds).2 = .ok last
      ∧ ((pairing.session.chunkCount + 1) * (pairing.options.maxRetries.toNat + 1)
          ≤ rounds.length → last.session.ended = true)
      ∧ (last.session.ended = true →
        pairing.Linked last (pairing.session.chunkCount + 1)) := by
  obtain ⟨last, k, hplay, hlinked, hk, hlong⟩ := (linked_start hfits).playAll hfits rounds
    (Nat.zero_le _) hbusy hlosses (hlosses _)
  refine ⟨last, hplay, ?_, ?_⟩
  · intro hrounds
    rw [hlinked.stands.ended_iff hk]
    exact hlong hrounds
  · intro hended
    rw [← (hlinked.stands.ended_iff hk).1 hended]
    exact hlinked

/-- Bounded loss is always made good. Whatever frames and answers are lost, as long as for no
datagram more exchanges than it may be sent again end without an answer, the session meets no
error; it ends after so many exchanges; and when it has ended, all chunks are accepted, the image
is installed, and once the jump request comes through the node jumps to it, once, unless every
byte of it looks erased. -/
theorem bounded_loss_recovered (hfits : pairing.Fits) :
    (Session.new pairing.inbox pairing.firmware pairing.options >>= fun session =>
        session.feed []) = .ok pairing.session
      ∧ ∀ rounds : List Round, pairing.Busy (pairing.start.playAll rounds).1 →
        (∀ stage, Exchange.losses stage (pairing.start.playAll rounds).1
          ≤ pairing.options.maxRetries.toNat) →
        ∃ last, (pairing.start.playAll rounds).2 = .ok last
          ∧ ((pairing.session.chunkCount + 1) * (pairing.options.maxRetries.toNat + 1)
              ≤ rounds.length → last.session.ended = true)
          ∧ (last.session.ended = true → pairing.Recovered last
            ∧ ∀ round : Round, (∀ n, round.through n = true) →
              last.node.silence round.now < pairing.config.timeout →
              (∃ byte ∈ pairing.firmware, byte ≠ Flash.erasedByte) →
              (last.pass round).after.device.jumper.jumps = [.application]) := by
  refine ⟨Session.new_feed hfits.valid hfits.firmware_pos hfits.firmware_lt, ?_⟩
  intro rounds hbusy hlosses
  obtain ⟨last, hplay, hlong, hlinked⟩ := hfits.playAll hbusy hlosses
  refine ⟨last, hplay, hlong, fun hended => ⟨(hlinked hended).recovered hfits, ?_⟩⟩
  rintro round hround hbusy' ⟨byte, hmem, hbyte⟩
  rw [(hlinked hended).jumps_eq hfits hround hbusy', if_neg]
  intro hall
  exact hbyte (beq_iff_eq.1 (List.all_eq_true.1 hall byte hmem))

/-! ## On a bench -/

/-- A flash part of 64 KiB that is programmed in words. -/
def benchGeometry : Geometry where
  writeSize := 4
  eraseSize := 0x800
  capacity := 0x10000

def benchLayout : Layout where
  staging := 0x8000
  active := 0x2000
  regionSize := 0x6000
  record? := some 0xF000

theorem benchLayout_usable : benchLayout.Usable benchGeometry := by decide

/-- A node on such a part, and a session that is to update it, with little room on either side. -/
def bench (firmware : Bytes) : Pairing benchGeometry where
  firmware
  options := { id := default }
  inbox := 284
  layout := benchLayout
  room := 2414

theorem bench_fits {firmware : Bytes} (hpos : 0 < firmware.length)
    (hfits : firmware.length ≤ 0x6000) : (bench firmware).Fits where
  usable := benchLayout_usable
  paged := ⟨by decide, fun _ => by decide⟩
  word_writes := Nat.dvd_refl 4
  valid := by
    show (0 : Nat) < 2048 ∧ 2048 ≤ 2048 ∧ 2048 % 4 = 0
    decide
  firmware_pos := hpos
  firmware_lt := Nat.lt_of_le_of_lt hfits (by decide)
  firmware_le := hfits
  addressed := rfl
  inbox_room := Nat.le_refl 284
  link_room := by
    show (Datagram.packetsFor 2048 + 1) * Packet.frameSize ≤ 2414
    decide
  glitch_eq := rfl
  fault_eq := rfl
  jumper_eq := rfl

/-- Two exchanges go wrong, one by a lost frame and one by a lost answer; the others go well. -/
def benchRounds : List Round :=
  ⟨0, (· != 1), true⟩ :: ⟨0, fun _ => true, false⟩
    :: List.replicate 10 ⟨0, fun _ => true, true⟩

theorem benchRounds_busy (firmware : Bytes) :
    (bench firmware).Busy ((bench firmware).start.playAll benchRounds).1 := by
  intro visit hmem
  have hnow : visit.1.now = 0 := by
    have hround := Exchange.mem_rounds hmem
    rw [benchRounds, List.mem_cons, List.mem_cons, List.mem_replicate] at hround
    rcases hround with heq | heq | ⟨-, heq⟩ <;> rw [heq]
  rw [hnow, Node.silence, Nat.zero_sub]
  exact Nat.succ_pos 14999

theorem benchRounds_losses {firmware : Bytes} (hpos : 0 < firmware.length)
    (hfits : firmware.length ≤ 0x6000) (stage : SessionStage) :
    Exchange.losses stage ((bench firmware).start.playAll benchRounds).1 ≤ 5 := by
  have hbench := bench_fits hpos hfits
  have hlossy : ∀ round ∈ benchRounds, (!(round.answered && round.through 1)) = false →
      round.Undisturbed := by
    intro round hmem hfalse
    rw [benchRounds, List.mem_cons, List.mem_cons, List.mem_replicate] at hmem
    rcases hmem with rfl | rfl | ⟨-, rfl⟩
    · exact absurd hfalse (by decide)
    · exact absurd hfalse (by decide)
    · exact ⟨fun _ => rfl, rfl⟩
  have hcount : benchRounds.countP (fun round => !(round.answered && round.through 1)) = 2 := by
    decide
  have hlosses := (linked_start hbench).losses_le hbench benchRounds hlossy (Nat.zero_le _)
    (benchRounds_busy firmware) (by rw [hcount]; exact (show 2 + 0 ≤ 5 by decide)) stage
  rw [hcount] at hlosses
  exact Nat.le_trans hlosses (by decide)

theorem bounded_loss_recovered_bench :
    ∃ last, ((bench [0x01, 0x02, 0x03]).start.playAll benchRounds).2 = .ok last
      ∧ last.session.ended = true
      ∧ last.device.flash.slice benchLayout.active 3 = [0x01, 0x02, 0x03]
      ∧ (last.pass ⟨0, fun _ => true, true⟩).after.device.jumper.jumps = [.application] := by
  have hpos : 0 < List.length (α := UInt8) [0x01, 0x02, 0x03] := by decide
  have hfits : List.length (α := UInt8) [0x01, 0x02, 0x03] ≤ 0x6000 := by decide
  obtain ⟨last, hplay, hlong, hdone⟩ := (bounded_loss_recovered (bench_fits hpos hfits)).2
    benchRounds (benchRounds_busy _) (benchRounds_losses hpos hfits)
  have hended := hlong (by decide)
  obtain ⟨hrecovered, hjump⟩ := hdone hended
  refine ⟨last, hplay, hended, hrecovered.slice_eq, ?_⟩
  apply hjump ⟨0, fun _ => true, true⟩ (fun _ => rfl)
  · rw [Node.silence, Nat.zero_sub]
    exact Nat.succ_pos 14999
  · exact ⟨0x01, List.mem_cons_self, by decide⟩

/-- A part of four pages, each too small for a record. Behind the record page there is a byte that
cannot be programmed. -/
def crampedGeometry : Geometry where
  writeSize := 4
  eraseSize := 16
  capacity := 64

def cramped : Pairing crampedGeometry where
  firmware := [0x01, 0x02, 0x03, 0x04]
  options := { id := .ofBytes [0x01] }
  inbox := 284
  layout := { staging := 0, active := 16, regionSize := 16, record? := some 32 }
  room := 2414
  device := { flash := ({} : Flash crampedGeometry).preload 48 [0x00] }

/-- A part whose pages are not whole writes. -/
def skewedGeometry : Geometry where
  writeSize := 4
  eraseSize := 6
  capacity := 24

def skewed : Pairing skewedGeometry where
  firmware := [0x01, 0x02, 0x03, 0x04, 0x05, 0x06, 0x07, 0x08]
  options := { id := .ofBytes [0x01] }
  inbox := 284
  layout := { staging := 0, active := 12, regionSize := 12 }
  room := 2414

/-- An announcement and a chunk, of which nothing is lost. -/
def undisturbed : List Round :=
  List.replicate 2 ⟨0, fun _ => true, true⟩

/-- Where recovery ends. An image that looks erased is installed but not jumped to, although no
more is lost than may be and the jump request comes through; and where a record does not fit into
its page, or a page is not made of whole writes, an update fails of which nothing is lost. -/
theorem recovery_limits :
    ((bench [0xFF, 0xFF, 0xFF, 0xFF]).Fits
      ∧ (bench [0xFF, 0xFF, 0xFF, 0xFF]).Busy
        ((bench [0xFF, 0xFF, 0xFF, 0xFF]).start.playAll benchRounds).1
      ∧ (∀ stage, Exchange.losses stage
        ((bench [0xFF, 0xFF, 0xFF, 0xFF]).start.playAll benchRounds).1 ≤ 5)
      ∧ ∃ last, ((bench [0xFF, 0xFF, 0xFF, 0xFF]).start.playAll benchRounds).2 = .ok last
        ∧ last.session.ended = true
        ∧ last.node.silence 0 < (bench [0xFF, 0xFF, 0xFF, 0xFF]).config.timeout
        ∧ (last.pass ⟨0, fun _ => true, true⟩).after.device.jumper.jumps = [])
    ∧ (cramped.layout.Usable crampedGeometry
      ∧ ((cramped.start.playAll undisturbed).1.all fun visit =>
        !(visit.2.pass visit.1).returned.isEmpty) = true
      ∧ Exchange.failure? (cramped.start.playAll undisturbed).2
        = some (.nodeRejected .firmwareChunk (Fault.flash .writeFailed).code))
    ∧ skewed.layout.Usable skewedGeometry
      ∧ ((skewed.start.playAll undisturbed).1.all fun visit =>
        !(visit.2.pass visit.1).returned.isEmpty) = true
      ∧ Exchange.failure? (skewed.start.playAll undisturbed).2
        = some (.nodeRejected .firmwareChunk (Fault.flash .notAligned).code) := by
  refine ⟨?_, ⟨by decide, by decide +kernel, by decide +kernel⟩, by decide, by decide +kernel,
    by decide +kernel⟩
  have hpos : 0 < List.length (α := UInt8) [0xFF, 0xFF, 0xFF, 0xFF] := by decide
  have hfits : List.length (α := UInt8) [0xFF, 0xFF, 0xFF, 0xFF] ≤ 0x6000 := by decide
  have hbench := bench_fits hpos hfits
  obtain ⟨last, hplay, hlong, hdone⟩ :=
    hbench.playAll (benchRounds_busy _) (benchRounds_losses hpos hfits)
  have hended := hlong (by decide)
  have hbusy : last.node.silence 0 < (bench [0xFF, 0xFF, 0xFF, 0xFF]).config.timeout := by
    rw [Node.silence, Nat.zero_sub]
    exact Nat.succ_pos 14999
  refine ⟨hbench, benchRounds_busy _, benchRounds_losses hpos hfits, last, hplay, hended, hbusy, ?_⟩
  rw [(hdone hended).jumps_eq hbench (fun _ => rfl) hbusy]
  rfl

end Pairing

end Reflash
