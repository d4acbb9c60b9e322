/-
  Reflash.Proofs.Node

  What a node makes of the frames of one datagram. It is polled until it has nothing
  more to do; by then the frames are off the link, and if they have completed the
  datagram it has been handled once and answered once.
-/
import Reflash.Node
import Reflash.Proofs.Link
import Reflash.Proofs.Reassembly

namespace Reflash

namespace Node

variable {g : Geometry} {now : Nat} {node : Node Loopback} {device : Device g}

/-! ## One step -/

/-- What there is to a node, but for its counters and the time of the last sign of life. -/
structure Holds (node : Node Loopback) (link : Loopback) (assembly : Assembly)
    (installer : Installer) (config : NodeConfig) : Prop where
  link_eq : node.endpoint.link = link
  assembly_eq : node.endpoint.assembly = assembly
  installer_eq : node.installer = installer
  config_eq : node.config = config

/-- Something valid came so lately that the node does not think of leaving. -/
def Busy (node : Node Loopback) (now : Nat) : Prop :=
  node.silence now < node.config.timeout

theorem Busy.stirred (h : node.Busy now) (endpoint : Endpoint Loopback) (installer : Installer) :
    ({ node with endpoint, installer }.stirred now).Busy now := by
  show now - now < node.config.timeout
  rw [Nat.sub_self]
  exact Nat.lt_of_le_of_lt (Nat.zero_le _) h

theorem poll_absorbed {receipt : Receipt} {endpoint : Endpoint Loopback}
    (hreceive : node.endpoint.receive = (receipt, endpoint)) (habsorbed : receipt.Absorbed) :
    ∃ event, event ≠ .idle
      ∧ node.poll g now = pure (.ok event, { node with endpoint }.stirred now) := by
  have hawake : (node.awake now).endpoint.receive = (receipt, endpoint) := hreceive
  rw [poll]
  simp only [hawake]
  cases receipt with
  | refused packet fault => exact ⟨.rejected fault, nofun, rfl⟩
  | accepted packet => exact ⟨.accepted, nofun, rfl⟩
  | _ => exact habsorbed.elim

theorem poll_silence {endpoint : Endpoint Loopback}
    (hreceive : node.endpoint.receive = (.silence, endpoint)) (hbusy : node.Busy now) :
    node.poll g now = pure (.ok .idle, { node with endpoint }.awake now) := by
  have hawake : (node.awake now).endpoint.receive = (.silence, endpoint) := hreceive
  have hcheck : ({ node.awake now with endpoint }.checkInactivity now)
      = pure (.ok (), { node with endpoint }.awake now) := by
    rw [checkInactivity]
    exact if_pos hbusy
  rw [poll]
  simp only [hawake]
  rw [checkThen, hcheck]
  rfl

theorem run_handle (node : Node Loopback) {datagram : Datagram} {result : Except Fault Unit}
    {installer : Installer} {device' : Device g}
    (haddressed : node.config.addressedElsewhere datagram.header.target = false)
    (hprocess : (node.installer.process g datagram).run device = ((result, installer), device')) :
    (node.handle g datagram).run device
      = ((.handled datagram.kind datagram.id result, { node with
          endpoint := (node.endpoint.send (datagram.answer result)).2, installer }), device') := by
  rw [handle, haddressed, if_neg Bool.false_ne_true, Procedure.run_bind, hprocess]
  rfl

theorem run_poll_delivered (now : Nat) {packet : Packet} {datagram : Datagram}
    {endpoint : Endpoint Loopback} {result : Except Fault Unit} {installer : Installer}
    {device' : Device g}
    (hreceive : node.endpoint.receive = (.delivered packet datagram, endpoint))
    (haddressed : node.config.addressedElsewhere datagram.header.target = false)
    (hprocess : (node.installer.process g datagram).run device = ((result, installer), device')) :
    (node.poll g now).run device
      = ((.ok (.handled datagram.kind datagram.id result), { node with
          endpoint := (endpoint.send (datagram.answer result)).2, installer }.stirred now),
        device') := by
  have hawake : (node.awake now).endpoint.receive = (.delivered packet datagram, endpoint) :=
    hreceive
  have hhandle := run_handle { node.awake now with endpoint } haddressed hprocess
  rw [poll]
  simp only [hawake]
  rw [Procedure.run_bind, hhandle]
  rfl

theorem run_poll_elsewhere (now : Nat) (device : Device g) {packet : Packet} {datagram : Datagram}
    {endpoint : Endpoint Loopback}
    (hreceive : node.endpoint.receive = (.delivered packet datagram, endpoint))
    (helsewhere : node.config.addressedElsewhere datagram.header.target = true) :
    (node.poll g now).run device = ((.ok (.notAddressed datagram.id),
      { node with endpoint }.stirred now), device) := by
  have hawake : (node.awake now).endpoint.receive = (.delivered packet datagram, endpoint) :=
    hreceive
  have hhandle : { node.awake now with endpoint }.handle g datagram
      = pure (.notAddressed datagram.id, { node.awake now with endpoint }) := by
    rw [handle]
    exact if_pos helsewhere
  rw [poll]
  simp only [hawake]
  rw [Procedure.run_bind, hhandle]
  rfl

/-! ## Until there is nothing more to do -/

theorem run_pollAll_more {limit : Nat} {event : NodeEvent} {next : Node Loopback}
    {mid : Device g} (hpoll : (node.poll g now).run device = ((.ok event, next), mid))
    (hevent : event ≠ .idle) :
    (node.pollAll g now (limit + 1)).run device
      = (let rest := (next.pollAll g now limit).run mid
        ((.ok event :: rest.1.1, rest.1.2), rest.2)) := by
  rw [pollAll, Procedure.run_bind, hpoll]
  cases event with
  | idle => exact absurd rfl hevent
  | _ => exact Procedure.run_bind _ _ _

theorem run_pollAll_idle {limit : Nat} {next : Node Loopback}
    (hpoll : node.poll g now = pure (.ok .idle, next)) :
    (node.pollAll g now (limit + 1)).run device = (([.ok .idle], next), device) := by
  rw [pollAll, Procedure.run_bind, hpoll]
  rfl

variable {whole : Datagram} {assembly last : Assembly} {frames : List Bytes} {delivered : Bool}
  {capacity limit : Nat} {outgoing : Bytes} {installer : Installer} {config : NodeConfig}

theorem Holds.receive {packet : Packet} {rest : Bytes}
    (h : node.Holds ⟨capacity, packet.toFrame ++ rest, outgoing⟩ assembly installer config) :
    ∃ stats, node.endpoint.receive = ((assembly.take packet.toFrame).1,
      ⟨⟨capacity, rest, outgoing⟩, (assembly.take packet.toFrame).2, stats⟩) := by
  obtain ⟨stats, hreceive⟩ := Endpoint.receive_toFrame (congrArg Loopback.incoming h.link_eq)
  rw [h.link_eq, h.assembly_eq] at hreceive
  exact ⟨stats, hreceive⟩

/-- A node with more bytes waiting on its link. -/
def fed (node : Node Loopback) (bytes : Bytes) : Node Loopback :=
  { node with endpoint.link := node.endpoint.link.feed bytes }

theorem Holds.fed {bytes : Bytes}
    (h : node.Holds ⟨capacity, [], outgoing⟩ assembly installer config)
    (hroom : bytes.length ≤ capacity) :
    (node.fed bytes).Holds ⟨capacity, bytes, outgoing⟩ assembly installer config := by
  refine ⟨?_, h.assembly_eq, h.installer_eq, h.config_eq⟩
  show node.endpoint.link.feed bytes = _
  rw [h.link_eq]
  have htake : [] ++ bytes.take (capacity - 0) = bytes := List.take_of_length_le hroom
  exact congrArg (fun incoming => (⟨capacity, incoming, outgoing⟩ : Loopback)) htake

/-- A frame that the reassembler absorbs is one step of the node. -/
theorem Holds.poll_absorbed {packet : Packet} {rest : Bytes} {receipt : Receipt} {mid : Assembly}
    (h : node.Holds ⟨capacity, packet.toFrame ++ rest, outgoing⟩ assembly installer config)
    (htake : assembly.take packet.toFrame = (receipt, mid)) (habsorbed : receipt.Absorbed) :
    ∃ event next, (node.poll g now).run device = ((.ok event, next), device) ∧ event ≠ .idle
      ∧ (node.Busy now → next.Busy now)
      ∧ next.Holds ⟨capacity, rest, outgoing⟩ mid installer config := by
  obtain ⟨stats, hreceive⟩ := h.receive
  rw [htake] at hreceive
  obtain ⟨event, hevent, hpoll⟩ := Node.poll_absorbed hreceive habsorbed
  refine ⟨event, _, ?_, hevent,
    fun hbusy => hbusy.stirred ⟨⟨capacity, rest, outgoing⟩, mid, stats⟩ _,
    ⟨rfl, rfl, h.installer_eq, h.config_eq⟩⟩
  rw [hpoll]
  rfl

/-- So is a frame that completes a datagram, which is handled and answered. -/
theorem Holds.poll_delivered {packet packet' : Packet} {rest : Bytes}
    {result : Except Fault Unit} {installer' : Installer} {device' : Device g}
    (h : node.Holds ⟨capacity, packet.toFrame ++ rest, outgoing⟩ assembly installer config)
    (htake : assembly.take packet.toFrame = (.delivered packet' whole, none))
    (haddressed : config.addressedElsewhere whole.header.target = false)
    (hroom : outgoing.length + 2 * Packet.frameSize ≤ capacity)
    (hprocess : (installer.process g whole).run device = ((result, installer'), device')) :
    ∃ event next, (node.poll g now).run device = ((.ok event, next), device') ∧ event ≠ .idle
      ∧ (node.Busy now → next.Busy now)
      ∧ next.Holds ⟨capacity, rest, outgoing ++ (whole.answer result).frames.flatten⟩ none
        installer' config := by
  obtain ⟨stats, hreceive⟩ := h.receive
  rw [htake] at hreceive
  rw [← h.installer_eq] at hprocess
  rw [← h.config_eq] at haddressed
  have hpoll := run_poll_delivered now hreceive haddressed hprocess
  rw [Endpoint.send_loopback
    (by rw [Datagram.length_flatten_frames_answer]; exact hroom)] at hpoll
  exact ⟨_, _, hpoll, nofun, fun hbusy => hbusy.stirred _ _, ⟨rfl, rfl, rfl, h.config_eq⟩⟩

/-- A datagram for another node is one step too, and nothing comes of it. -/
theorem Holds.poll_elsewhere {packet packet' : Packet} {rest : Bytes}
    (h : node.Holds ⟨capacity, packet.toFrame ++ rest, outgoing⟩ assembly installer config)
    (htake : assembly.take packet.toFrame = (.delivered packet' whole, none))
    (helsewhere : config.addressedElsewhere whole.header.target = true) :
    ∃ event next, (node.poll g now).run device = ((.ok event, next), device) ∧ event ≠ .idle
      ∧ (node.Busy now → next.Busy now)
      ∧ next.Holds ⟨capacity, rest, outgoing⟩ none installer config := by
  obtain ⟨stats, hreceive⟩ := h.receive
  rw [htake] at hreceive
  rw [← h.config_eq] at helsewhere
  have hpoll := run_poll_elsewhere now device hreceive helsewhere
  exact ⟨_, _, hpoll, nofun, fun hbusy => hbusy.stirred _ _,
    ⟨rfl, rfl, h.installer_eq, h.config_eq⟩⟩

/-- A node that has been silent for too long tries to leave. -/
theorem Holds.run_poll_left (device : Device g)
    (h : node.Holds ⟨capacity, [], outgoing⟩ assembly installer config) (hbusy : ¬node.Busy now) :
    ∃ fault next config', (node.poll g now).run device
        = ((.error fault, next), (installer.failSafeJump.run device).2)
      ∧ next.Holds ⟨capacity, [], outgoing⟩ assembly installer config'
      ∧ config'.id? = config.id? := by
  obtain ⟨endpoint, hreceive, hlink, hassembly⟩ : ∃ endpoint,
      node.endpoint.receive = (.silence, endpoint) ∧ endpoint.link = node.endpoint.link
        ∧ endpoint.assembly = node.endpoint.assembly := by
    obtain ⟨stats, hreceive⟩ := Endpoint.receive_nil (congrArg Loopback.incoming h.link_eq)
    exact ⟨_, hreceive, rfl, rfl⟩
  have hawake : (node.awake now).endpoint.receive = (.silence, endpoint) := hreceive
  have hcheck : ({ node.awake now with endpoint }.checkInactivity now)
      = installer.failSafeJump >>= fun reason =>
        if reason = .bootloaderFailure then pure (.error reason, { node with endpoint }.awake now)
        else pure (.error reason, { { node with endpoint }.awake now with
          config.timeout := NodeConfig.never }) := by
    rw [← h.installer_eq, checkInactivity]
    exact if_neg hbusy
  rw [poll]
  simp only [hawake]
  rw [checkThen, hcheck, Procedure.run_bind, Procedure.run_bind]
  by_cases hreason : (installer.failSafeJump.run device).1 = .bootloaderFailure
  · rw [if_pos hreason]
    exact ⟨_, _, config, rfl, ⟨hlink.trans h.link_eq, hassembly.trans h.assembly_eq,
      h.installer_eq, h.config_eq⟩, rfl⟩
  · rw [if_neg hreason]
    exact ⟨_, _, { config with timeout := NodeConfig.never }, rfl,
      ⟨hlink.trans h.link_eq, hassembly.trans h.assembly_eq, h.installer_eq,
        congrArg (fun config => { config with timeout := NodeConfig.never }) h.config_eq⟩, rfl⟩

/-- With nothing on its link a node does nothing, or it has been silent for so long that it tries to
leave; then it may lift the limit for its silence. -/
theorem Holds.run_pollAll_dry (now : Nat) (device : Device g) (more : Nat)
    (h : node.Holds ⟨capacity, [], outgoing⟩ assembly installer config) :
    ∃ events next config' device', (node.pollAll g now (more + 1)).run device
        = ((events, next), device')
      ∧ next.Holds ⟨capacity, [], outgoing⟩ assembly installer config'
      ∧ config'.id? = config.id?
      ∧ (device' = device ∨ device' = (installer.failSafeJump.run device).2) := by
  by_cases hbusy : node.Busy now
  · obtain ⟨stats, hreceive⟩ := Endpoint.receive_nil (congrArg Loopback.incoming h.link_eq)
    exact ⟨_, _, config, device, run_pollAll_idle (poll_silence hreceive hbusy),
      ⟨h.link_eq, h.assembly_eq, h.installer_eq, h.config_eq⟩, rfl, .inl rfl⟩
  · obtain ⟨fault, next, config', hpoll, hnext, hid⟩ := h.run_poll_left device hbusy
    refine ⟨[.error fault], next, config', _, ?_, hnext, hid, .inr rfl⟩
    rw [pollAll, Procedure.run_bind, hpoll]
    rfl

/-- A node that is given frames of one datagram takes them all off the link, and is polled on with
nothing left. If the datagram comes of them, and is for this node, it is handled and answered,
once. -/
theorem Holds.run_pollAll_frames (now : Nat) (device : Device g)
    (htakes : assembly.Takes whole frames delivered last)
    (hframes : ∀ frame ∈ frames, ∃ packet : Packet, frame = packet.toFrame)
    (h : node.Holds ⟨capacity, frames.flatten, outgoing⟩ assembly installer config)
    (hroom : delivered = true → outgoing.length + 2 * Packet.frameSize ≤ capacity)
    (hlimit : frames.length < limit) :
    let handled := delivered && !config.addressedElsewhere whole.header.target
    let outcome := (installer.process g whole).run device
    ∃ (events : List (Except Fault NodeEvent)) (next : Node Loopback) (more : Nat),
      (node.pollAll g now limit).run device
        = (let rest := (next.pollAll g now (more + 1)).run (bif handled then outcome.2 else device)
          ((events ++ rest.1.1, rest.1.2), rest.2))
      ∧ (node.Busy now → next.Busy now)
      ∧ next.Holds
        ⟨capacity, [], outgoing
          ++ bif handled then (whole.answer outcome.1.1).frames.flatten else []⟩
        last (bif handled then outcome.1.2 else installer) config := by
  induction htakes generalizing node device outgoing installer limit with
  | nil assembly =>
    obtain ⟨limit, rfl⟩ := Nat.exists_eq_succ_of_ne_zero (Nat.ne_of_gt hlimit)
    refine ⟨[], node, limit, rfl, id, ?_⟩
    rw [Bool.false_and, cond_false, cond_false, List.append_nil]
    exact h
  | absorbed take_eq absorbed rest ih =>
    obtain ⟨limit, rfl⟩ := Nat.exists_eq_succ_of_ne_zero (Nat.ne_of_gt (Nat.zero_lt_of_lt hlimit))
    obtain ⟨packet, rfl⟩ := hframes _ List.mem_cons_self
    obtain ⟨event, next, hpoll, hevent, hbusy, hnext⟩ := h.poll_absorbed take_eq absorbed
    obtain ⟨events, spent, more, hrun, hbusy', hspent⟩ :=
      ih _ (fun frame hmem => hframes frame (List.mem_cons_of_mem _ hmem)) hnext hroom
        (Nat.lt_of_succ_lt_succ hlimit)
    refine ⟨.ok event :: events, spent, more, ?_, hbusy' ∘ hbusy, hspent⟩
    rw [run_pollAll_more hpoll hevent, hrun]
    rfl
  | delivered take_eq rest ih =>
    obtain ⟨limit, rfl⟩ := Nat.exists_eq_succ_of_ne_zero (Nat.ne_of_gt (Nat.zero_lt_of_lt hlimit))
    obtain ⟨packet, rfl⟩ := hframes _ List.mem_cons_self
    have htail := fun frame hmem => hframes frame (List.mem_cons_of_mem _ hmem)
    cases haddressed : config.addressedElsewhere whole.header.target with
    | false =>
      obtain ⟨event, next, hpoll, hevent, hbusy, hnext⟩ :=
        h.poll_delivered take_eq haddressed (hroom rfl) (Prod.eta _).symm
      obtain ⟨events, spent, more, hrun, hbusy', hspent⟩ :=
        ih _ htail hnext nofun (Nat.lt_of_succ_lt_succ hlimit)
      -- Nothing is under way any more, so what is left of the frames is refused.
      rw [Bool.false_and, cond_false, cond_false, List.append_nil] at hspent
      refine ⟨.ok event :: events, spent, more, ?_, hbusy' ∘ hbusy, hspent⟩
      rw [run_pollAll_more hpoll hevent, hrun]
      rfl
    | true =>
      obtain ⟨event, next, hpoll, hevent, hbusy, hnext⟩ := h.poll_elsewhere take_eq haddressed
      obtain ⟨events, spent, more, hrun, hbusy', hspent⟩ :=
        ih device htail hnext nofun (Nat.lt_of_succ_lt_succ hlimit)
      refine ⟨.ok event :: events, spent, more, ?_, hbusy' ∘ hbusy, hspent⟩
      rw [run_pollAll_more hpoll hevent, hrun]
      rfl

/-- As long as the node does not think of leaving, that is all. -/
theorem Holds.run_pollAll (device : Device g)
    (htakes : assembly.Takes whole frames delivered last)
    (hframes : ∀ frame ∈ frames, ∃ packet : Packet, frame = packet.toFrame)
    (h : node.Holds ⟨capacity, frames.flatten, outgoing⟩ assembly installer config)
    (hbusy : node.Busy now) (haddressed : config.addressedElsewhere whole.header.target = false)
    (hroom : delivered = true → outgoing.length + 2 * Packet.frameSize ≤ capacity)
    (hlimit : frames.length < limit) :
    let outcome := (installer.process g whole).run device
    ∃ events next, (node.pollAll g now limit).run device
        = ((events, next), bif delivered then outcome.2 else device)
      ∧ next.Holds
        ⟨capacity, [], outgoing
          ++ bif delivered then (whole.answer outcome.1.1).frames.flatten else []⟩
        last (bif delivered then outcome.1.2 else installer) config := by
  obtain ⟨events, spent, more, hrun, hbusy', hspent⟩ :=
    h.run_pollAll_frames now device htakes hframes hroom hlimit
  simp only [haddressed, Bool.not_false, Bool.and_true] at hrun hspent
  obtain ⟨stats, hreceive⟩ := Endpoint.receive_nil (congrArg Loopback.incoming hspent.link_eq)
  rw [run_pollAll_idle (poll_silence hreceive (hbusy' hbusy))] at hrun
  exact ⟨_, _, hrun, hspent.link_eq, hspent.assembly_eq, hspent.installer_eq, hspent.config_eq⟩

end Node

end Reflash
