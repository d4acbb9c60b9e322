/-
  Reflash.Proofs.Exchange

  One exchange over a link that loses whole frames and whole answers. Whatever is lost,
  the node keeps nothing of the outstanding datagram but a part of it, or it has handled
  the datagram once; and the session hears of that or of nothing.
-/
import Reflash.Exchange
import Reflash.Proofs.Node
import Reflash.Proofs.Session

namespace Reflash

/-! ## Losses -/

/-- What a link that loses frames and answers does to one exchange. -/
structure Round where
  /-- The time of the exchange, in milliseconds. -/
  now : Nat
  /-- Which frames come through, by their place in the transmission. -/
  through : Nat → Bool
  /-- Whether the answer comes back. -/
  answered : Bool

namespace Round

/-- The frames that come through, in order. -/
def order (round : Round) : List Nat :=
  (List.range (Datagram.maxDataPackets + 1)).filter round.through

def disturbance (round : Round) : Disturbance where
  outward := [{ order? := some round.order }]
  back := if round.answered then [] else [{ keep? := some 0 }]

/-- Nothing is lost. -/
def Undisturbed (round : Round) : Prop :=
  (∀ n, round.through n = true) ∧ round.answered = true

end Round

/-! ## What comes through -/

namespace Damage

theorem apply_order (order : List Nat) (bytes : Bytes) :
    apply bytes { order? := some order } = reorder order bytes := by
  rw [apply]
  exact List.append_nil _

theorem apply_keep_zero (bytes : Bytes) : apply bytes { keep? := some 0 } = [] := by
  rw [apply]
  exact List.append_nil _

/-- Of the frames of a datagram those come through that are named, each whole. -/
theorem reorder_frames (order : List Nat) (datagram : Datagram) :
    reorder order datagram.frames.flatten
      = (datagram.framesAt (order.filter (· < datagram.packetCount))).flatten := by
  have hpieces : Bytes.pieces Packet.frameSize datagram.frames.flatten = datagram.frames := by
    refine Bytes.pieces_flatten (by decide) ?_
    intro frame hmem
    obtain ⟨packet, -, rfl⟩ := List.mem_map.1 hmem
    exact packet.length_toFrame
  have hframe : ∀ n, datagram.frames[n]?
      = if n < datagram.packetCount then some (datagram.packetAt n).toFrame else none := by
    intro n
    rw [Datagram.frames_eq, Datagram.framesAt, List.getElem?_map]
    by_cases hn : n < datagram.packetCount
    · rw [List.getElem?_range hn, if_pos hn]
      rfl
    · rw [List.getElem?_eq_none (by rw [List.length_range]; omega), if_neg hn]
      rfl
  rw [reorder, hpieces]
  congr 1
  induction order with
  | nil => rfl
  | cons n order ih =>
    by_cases hn : n < datagram.packetCount
    · rw [List.filterMap_cons_some ((hframe n).trans (if_pos hn)), ih, List.filter_cons,
        if_pos (decide_eq_true hn)]
      rfl
    · rw [List.filterMap_cons_none ((hframe n).trans (if_neg hn)), ih, List.filter_cons,
        if_neg fun htrue => hn (of_decide_eq_true htrue)]

end Damage

/-- An ascending list has no more entries than there are numbers for them. -/
theorem length_le_of_ascending {order : List Nat} {low high : Nat}
    (hsorted : order.Pairwise (· < ·)) (h : ∀ n ∈ order, low ≤ n ∧ n < high) :
    order.length ≤ high - low := by
  induction order generalizing low with
  | nil => exact Nat.zero_le _
  | cons n order ih =>
    obtain ⟨hbelow, hsorted⟩ := List.pairwise_cons.1 hsorted
    have hn := h n List.mem_cons_self
    have htail := ih hsorted fun m hmem =>
      ⟨Nat.succ_le_of_lt (hbelow m hmem), (h m (List.mem_cons_of_mem _ hmem)).2⟩
    rw [List.length_cons]
    omega

/-- The places of the frames that come through, in order. -/
def Damage.passing (through : Nat → Bool) : List Nat :=
  (List.range (Datagram.maxDataPackets + 1)).filter through

/-- What of a whole datagram comes through: some of its frames, in order, and all of them when
none is lost. -/
theorem Damage.apply_passing (through : Nat → Bool) {whole : Datagram} (h : whole.Whole) :
    ∃ order : List Nat, order.Pairwise (· < ·) ∧ (∀ n ∈ order, n ≤ whole.slots.length)
      ∧ order.length ≤ whole.packetCount
      ∧ ((∀ n, through n = true) → ∀ n ≤ whole.slots.length, n ∈ order)
      ∧ apply whole.frames.flatten { order? := some (passing through) }
        = (whole.framesAt order).flatten := by
  have hmax : Datagram.maxDataPackets = 16 := rfl
  have hcount := h.packetCount_eq
  have hfew := h.room
  have hsorted : ((passing through).filter (· < whole.packetCount)).Pairwise (· < ·) :=
    (List.pairwise_lt_range.filter _).filter _
  have hbelow : ∀ n ∈ (passing through).filter (· < whole.packetCount), n < whole.packetCount :=
    fun n hmem => of_decide_eq_true (List.mem_filter.1 hmem).2
  refine ⟨_, hsorted, ?_, ?_, ?_, ?_⟩
  · intro n hmem
    have hn := hbelow n hmem
    omega
  · exact length_le_of_ascending hsorted fun n hmem => ⟨Nat.zero_le n, hbelow n hmem⟩
  · intro hall n hn
    rw [List.mem_filter, passing, List.mem_filter, List.mem_range]
    exact ⟨⟨by omega, hall n⟩, decide_eq_true (by omega)⟩
  · rw [apply_order, reorder_frames]

/-- Of nothing nothing comes through. -/
theorem Damage.apply_order_nil (order : List Nat) : apply [] { order? := some order } = [] := by
  rw [apply_order, reorder, Bytes.pieces_nil]
  simp

theorem Round.arrives (round : Round) {whole : Datagram} (h : whole.Whole) :
    ∃ order : List Nat, order.Pairwise (· < ·) ∧ (∀ n ∈ order, n ≤ whole.slots.length)
      ∧ order.length ≤ whole.packetCount
      ∧ ((∀ n, round.through n = true) → ∀ n ≤ whole.slots.length, n ∈ order)
      ∧ Damage.apply whole.frames.flatten { order? := some round.order }
        = (whole.framesAt order).flatten :=
  Damage.apply_passing round.through h

/-- An answer comes back whole or not at all. -/
theorem Round.returns (round : Round) (answer : Bytes) :
    round.disturbance.back.foldl Damage.apply answer
      = if round.answered then answer else [] := by
  rw [Round.disturbance]
  cases round.answered with
  | true => rfl
  | false => exact Damage.apply_keep_zero answer

/-- A node whose answers have been fetched. -/
theorem Node.Holds.fetched {node : Node Loopback} {capacity : Nat} {outgoing : Bytes}
    {assembly : Assembly} {installer : Installer} {config : NodeConfig}
    (h : node.Holds ⟨capacity, [], outgoing⟩ assembly installer config) :
    { node with endpoint.link := node.endpoint.link.clearSent }.Holds ⟨capacity, [], []⟩ assembly
      installer config := by
  refine ⟨?_, h.assembly_eq, h.installer_eq, h.config_eq⟩
  show node.endpoint.link.clearSent = _
  rw [h.link_eq]
  rfl

/-- A device on which flash requests are planned to fail. -/
def Device.planning {g : Geometry} (device : Device g) (faults : List PlannedFault) : Device g :=
  let plan (flash : Flash g) (planned : PlannedFault) :=
    flash.failAfter planned.operation planned.skip
  { device with flash := faults.foldl plan device.flash }

namespace Exchange

variable {g : Geometry}

/-- One exchange over a link that loses what `round` says. -/
def pass (exchange : Exchange g) (round : Round) : Report g :=
  exchange.transfer round.disturbance round.now

/-- What the session has to say. -/
def sent (exchange : Exchange g) : Bytes :=
  if exchange.session.due then exchange.session.outgoing else []

/-- What an exchange comes to, by what arrives at the node and what the node makes of it. -/
theorem transfer_eq {exchange : Exchange g} {disturbance : Disturbance} {now : Nat}
    {arrived : Bytes} {events : List (Except Fault NodeEvent)} {next : Node Loopback}
    {device : Device g} (harrived : disturbance.outward.foldl Damage.apply exchange.sent = arrived)
    (hrun : ((exchange.node.fed arrived).pollAll g now stepLimit).run
        (exchange.device.planning disturbance.faults) = ((events, next), device)) :
    exchange.transfer disturbance now = {
      sent := exchange.sent
      arrived
      events
      reply := next.endpoint.link.outgoing
      returned := disturbance.back.foldl Damage.apply next.endpoint.link.outgoing
      after := {
        session := { exchange.session with due := false }
        node := { next with endpoint.link := next.endpoint.link.clearSent }
        device } } := by
  have hcollect : exchange.session.collect.1.getD [] = exchange.sent
      ∧ exchange.session.collect.2 = { exchange.session with due := false } := by
    rw [Session.collect, sent]
    cases hdue : exchange.session.due with
    | true => exact ⟨rfl, rfl⟩
    | false =>
      refine ⟨rfl, ?_⟩
      show exchange.session = _
      rw [← hdue]
  obtain ⟨session, node, flash, jumper⟩ := exchange
  rw [← hcollect.1] at harrived
  rw [← hcollect.1, ← hcollect.2, transfer]
  rw [Node.fed, Device.planning] at hrun
  simp only [harrived, hrun]

/-- An exchange in which the session has something to send. -/
theorem pass_eq {exchange : Exchange g} {round : Round} {arrived : Bytes}
    {events : List (Except Fault NodeEvent)} {next : Node Loopback} {device : Device g}
    (hdue : exchange.session.due = true)
    (harrived : Damage.apply exchange.session.outgoing { order? := some round.order } = arrived)
    (hrun : ((exchange.node.fed arrived).pollAll g round.now stepLimit).run exchange.device
      = ((events, next), device)) :
    exchange.pass round = {
      sent := exchange.session.outgoing
      arrived
      events
      reply := next.endpoint.link.outgoing
      returned := if round.answered then next.endpoint.link.outgoing else []
      after := {
        session := { exchange.session with due := false }
        node := { next with endpoint.link := next.endpoint.link.clearSent }
        device } } := by
  have hsent : exchange.sent = exchange.session.outgoing := if_pos hdue
  rw [← hsent] at harrived ⊢
  rw [← Round.returns]
  exact transfer_eq harrived hrun

/-- A link with room for all frames of a datagram has room for some of them, and for the answer once
they are taken off it; and they are so few that the node gets to the end of them. -/
theorem framesAt_fit {whole : Datagram} (h : whole.Whole) {order : List Nat} {capacity : Nat}
    (hfew : order.length ≤ whole.packetCount)
    (hroom : whole.packetCount * Packet.frameSize ≤ capacity) :
    (whole.framesAt order).flatten.length ≤ capacity
      ∧ List.length (α := UInt8) [] + 2 * Packet.frameSize ≤ capacity
      ∧ (∀ frame ∈ whole.framesAt order, ∃ packet : Packet, frame = packet.toFrame)
      ∧ (whole.framesAt order).length < stepLimit := by
  have hcount := h.packetCount_eq
  have hpositive := h.pos
  refine ⟨?_, ?_, ?_, ?_⟩
  · rw [Datagram.length_flatten_framesAt]
    exact Nat.le_trans (Nat.mul_le_mul_right _ hfew) hroom
  · rw [List.length_nil, Nat.zero_add]
    exact Nat.le_trans (Nat.mul_le_mul_right _ (by omega)) hroom
  · intro frame hmem
    obtain ⟨n, -, rfl⟩ := List.mem_map.1 hmem
    exact ⟨_, rfl⟩
  · have hslots := h.room
    have hmax : Datagram.maxDataPackets = 16 := rfl
    have hsteps : stepLimit = 400 := rfl
    rw [Datagram.framesAt, List.length_map]
    omega

/-- What comes of one exchange over a lossy link, when `whole` is outstanding. -/
theorem pass_ensures {exchange : Exchange g} {round : Round} {whole : Datagram} {capacity : Nat}
    {assembly : Assembly} {installer : Installer} {config : NodeConfig} (h : whole.Whole)
    (hdue : exchange.session.due = true)
    (houtgoing : exchange.session.outgoing = whole.frames.flatten)
    (hnode : exchange.node.Holds ⟨capacity, [], []⟩ assembly installer config)
    (hpartial : assembly.Partial whole) (hbusy : exchange.node.Busy round.now)
    (haddressed : config.addressedElsewhere whole.header.target = false)
    (hroom : whole.packetCount * Packet.frameSize ≤ capacity) :
    let report := exchange.pass round
    let outcome := (installer.process g whole).run exchange.device
    ∃ delivered last, ((∀ n, round.through n = true) → delivered = true)
      ∧ report.after.session = { exchange.session with due := false }
      ∧ report.after.node.Holds ⟨capacity, [], []⟩ last
        (bif delivered then outcome.1.2 else installer) config
      ∧ last.Partial whole ∧ (delivered = true → last = none)
      ∧ report.after.device = (bif delivered then outcome.2 else exchange.device)
      ∧ report.returned = bif delivered && round.answered
        then (whole.answer outcome.1.1).frames.flatten else [] := by
  obtain ⟨order, hsorted, hbelow, hfew, hcovers, harrived⟩ := round.arrives h
  obtain ⟨delivered, last, htakes, hlast, hnone, hall⟩ :=
    Assembly.takes_frames h hpartial hsorted hbelow
  obtain ⟨hlength, hanswer, hframes, hlimit⟩ := framesAt_fit h hfew hroom
  obtain ⟨events, next, hrun, hnext⟩ :=
    (hnode.fed hlength).run_pollAll exchange.device htakes hframes hbusy haddressed
      (fun _ => hanswer) hlimit
  rw [← houtgoing] at harrived
  rw [pass_eq hdue harrived hrun]
  refine ⟨delivered, last, fun hthrough => hall (hcovers hthrough), rfl, hnext.fetched, hlast,
    hnone, rfl, ?_⟩
  show (if round.answered = true then next.endpoint.link.outgoing else []) = _
  rw [hnext.link_eq]
  cases round.answered with
  | true =>
    rw [Bool.and_true]
    exact List.nil_append _
  | false =>
    rw [Bool.and_false]
    rfl

end Exchange

/-! ## Frames lost either way, and failing flash -/

/-- What befalls one exchange over a link that loses frames either way, at a node whose flash may
fail. -/
structure Ordeal where
  /-- The time of the exchange, in milliseconds. -/
  now : Nat := 0
  /-- Which frames of the session come through, by their place in the transmission. -/
  outward : Nat → Bool := fun _ => true
  /-- Which frames of the answer come back, by their place in it. -/
  back : Nat → Bool := fun _ => true
  /-- Flash requests of the node that are planned to fail. -/
  faults : List PlannedFault := []

def Ordeal.disturbance (ordeal : Ordeal) : Disturbance where
  outward := [{ order? := some (Damage.passing ordeal.outward) }]
  back := [{ order? := some (Damage.passing ordeal.back) }]
  faults := ordeal.faults

namespace Exchange

variable {g : Geometry}

/-- One exchange in which `ordeal` befalls the two. -/
def undergo (exchange : Exchange g) (ordeal : Ordeal) : Report g :=
  exchange.transfer ordeal.disturbance ordeal.now

/-- What comes of an exchange when `whole` is outstanding, due or not: the node has handled it,
once, or not at all, and may have tried to leave after that; and of an answer some frames come
back. -/
theorem undergo_ensures {exchange : Exchange g} (ordeal : Ordeal) {whole : Datagram}
    {capacity : Nat} {assembly : Assembly} {installer : Installer} {config : NodeConfig}
    (h : whole.Whole) (houtgoing : exchange.session.outgoing = whole.frames.flatten)
    (hnode : exchange.node.Holds ⟨capacity, [], []⟩ assembly installer config)
    (hpartial : assembly.Partial whole)
    (hroom : whole.packetCount * Packet.frameSize ≤ capacity) :
    let report := exchange.undergo ordeal
    let device := exchange.device.planning ordeal.faults
    let outcome := (installer.process g whole).run device
    ∃ handled last config' order,
      report.after.session = { exchange.session with due := false }
      ∧ report.after.node.Holds ⟨capacity, [], []⟩ last
        (bif handled then outcome.1.2 else installer) config'
      ∧ last.Partial whole ∧ (handled = true → last = none)
      ∧ (report.after.device = (bif handled then outcome.2 else device)
        ∨ report.after.device = ((bif handled then outcome.1.2 else installer).failSafeJump.run
          (bif handled then outcome.2 else device)).2)
      ∧ report.returned = (bif handled then ((whole.answer outcome.1.1).framesAt order).flatten
        else [])
      ∧ order.Pairwise (· < ·) ∧ ∀ n ∈ order, n ≤ 1 := by
  -- What is not due does not arrive either.
  obtain ⟨order, hsorted, hbelow, hfew, harrived⟩ : ∃ order : List Nat, order.Pairwise (· < ·)
      ∧ (∀ n ∈ order, n ≤ whole.slots.length) ∧ order.length ≤ whole.packetCount
      ∧ ordeal.disturbance.outward.foldl Damage.apply exchange.sent
        = (whole.framesAt order).flatten := by
    cases hdue : exchange.session.due with
    | false =>
      refine ⟨[], .nil, nofun, Nat.zero_le _, ?_⟩
      rw [sent, hdue]
      exact Damage.apply_order_nil _
    | true =>
      obtain ⟨order, hsorted, hbelow, hfew, -, harrived⟩ := Damage.apply_passing ordeal.outward h
      refine ⟨order, hsorted, hbelow, hfew, ?_⟩
      rw [sent, if_pos hdue, houtgoing]
      exact harrived
  obtain ⟨delivered, last, htakes, hlast, hnone, -⟩ :=
    Assembly.takes_frames h hpartial hsorted hbelow
  obtain ⟨hlength, hanswer, hframes, hlimit⟩ := framesAt_fit h hfew hroom
  -- The node takes the frames one by one, and then polls an empty link until it is idle.
  obtain ⟨events, spent, more, hrun, -, hspent⟩ := (hnode.fed hlength).run_pollAll_frames
    ordeal.now (exchange.device.planning ordeal.faults) htakes hframes (fun _ => hanswer) hlimit
  generalize hhandled : (delivered && !config.addressedElsewhere whole.header.target) = handled
    at hrun hspent
  obtain ⟨events', next, config', device', hdry, hnext, -, hdevice⟩ := hspent.run_pollAll_dry
    ordeal.now _ more
  rw [hdry] at hrun
  have hreport := transfer_eq harrived hrun
  obtain ⟨order', hsorted', hbelow', -, -, hback⟩ := Damage.apply_passing ordeal.back
    (whole.answer_whole ((installer.process g whole).run
      (exchange.device.planning ordeal.faults)).1.1)
  rw [Datagram.length_slots_answer] at hbelow'
  rw [undergo, hreport]
  refine ⟨handled, last, config', order', rfl, hnext.fetched, hlast, fun htrue => hnone ?_, hdevice,
    ?_, hsorted', hbelow'⟩
  · rw [← hhandled, Bool.and_eq_true] at htrue
    exact htrue.1
  · show Damage.apply next.endpoint.link.outgoing _ = _
    rw [hnext.link_eq]
    cases handled with
    | false => exact Damage.apply_order_nil _
    | true => exact hback

/-! ## Many exchanges -/

section

variable {ρ : Type} (disturbance : ρ → Disturbance) (now : ρ → Nat)

/-- Exchanges one after the other, each disturbed as its item says, until the session ends: those
that take place, each as it is before it, and how they end. -/
def playOut : List ρ → Exchange g → List (ρ × Exchange g) × Except SessionError (Exchange g)
  | [], exchange => ([], .ok exchange)
  | item :: items, exchange =>
    if exchange.session.ended then ([], .ok exchange)
    else
      let report := exchange.transfer (disturbance item) (now item)
      match report.after.conclude report.returned with
      | .error error => ([(item, exchange)], .error error)
      | .ok next =>
        let rest := playOut items next
        ((item, exchange) :: rest.1, rest.2)

/-- Times that follow one another at equal intervals. -/
def Spaced (interval : Nat) : Nat → List Nat → Prop
  | _, [] => True
  | time, now :: rest => now = time ∧ Spaced interval (time + interval) rest

theorem ended_transfer (exchange : Exchange g) (disturbance : Disturbance) (now : Nat) :
    (exchange.transfer disturbance now).after.session.ended = exchange.session.ended := by
  show exchange.session.collect.2.ended = _
  rw [Session.collect]
  split <;> rfl

theorem playOut_ended {exchange : Exchange g} (h : exchange.session.ended = true)
    (items : List ρ) : exchange.playOut disturbance now items = ([], .ok exchange) := by
  cases items with
  | nil => rfl
  | cons item items => rw [playOut, if_pos h]

/-- Exchanges at equal intervals run as they are played out, but for the exchange in which the jump
request goes out: it is run too, as the last one. -/
theorem run_eq_playOut {interval time : Nat} {items : List ρ}
    (hspaced : Spaced interval time (items.map now)) {exchange last : Exchange g}
    (hlast : (exchange.playOut disturbance now items).2 = .ok last) :
    exchange.run interval (items.map disturbance) time
      = match items.drop (exchange.playOut disturbance now items).1.length with
        | [] => ((exchange.playOut disturbance now items).1.map fun visit =>
            visit.2.transfer (disturbance visit.1) (now visit.1), .limit, last)
        | item :: _ => ((exchange.playOut disturbance now items).1.map (fun visit =>
            visit.2.transfer (disturbance visit.1) (now visit.1))
              ++ [last.transfer (disturbance item) (now item)],
            .ended, (last.transfer (disturbance item) (now item)).after) := by
  induction items generalizing time exchange with
  | nil =>
    cases hlast
    rfl
  | cons item items ih =>
    obtain ⟨rfl, hspaced⟩ := hspaced
    rw [List.map_cons, run]
    simp only [ended_transfer]
    by_cases h : exchange.session.ended = true
    · rw [playOut_ended _ _ h] at hlast ⊢
      cases hlast
      exact if_pos h
    · rw [playOut, if_neg h] at hlast ⊢
      rw [if_neg h]
      cases hconclude : (exchange.transfer (disturbance item) (now item)).after.conclude
          (exchange.transfer (disturbance item) (now item)).returned with
      | error error =>
        simp only [hconclude] at hlast
        cases hlast
      | ok next =>
        simp only [hconclude] at hlast ⊢
        rw [ih hspaced hlast]
        simp only [List.length_cons, List.drop_succ_cons]
        cases items.drop (next.playOut disturbance now items).1.length with
        | nil => rfl
        | cons last' items' => rfl

end

end Exchange

end Reflash
