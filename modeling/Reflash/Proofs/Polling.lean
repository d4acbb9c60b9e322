/-
  Reflash.Proofs.Polling

  What one poll of a node comes to. What it receives decides everything else: at most
  one datagram is handed to the installer, and it is answered; a datagram that came
  out wrong is answered without the installer; on everything else the node keeps
  silent. When what it receives is no sign of life it looks at its clock, and may try
  to leave, for which it only reads.
-/
import Reflash.Proofs.Install.Footprint
import Reflash.Proofs.Install.Inspection
import Reflash.Proofs.Node
import Reflash.Proofs.Stream
import Reflash.Proofs.Transmission

namespace Reflash

namespace Receipt

/-- The event of a receipt that is no sign of life, but for failures of the link. -/
def unheard? : Receipt → Option NodeEvent
  | silence | cutShort _ => some .idle
  | malformed _ => some (.discarded .malformed)
  | corrupt _ => some (.discarded .crcMismatch)
  | unrouted _ => some (.discarded .unrouted)
  | _ => none

theorem unheard?_unanswered {receipt : Receipt} {event : NodeEvent}
    (h : receipt.unheard? = some event) :
    (∀ kind id result, event ≠ .handled kind id result) ∧ (∀ id, event ≠ .spoiled id)
      ∧ ∀ packet datagram, receipt ≠ .delivered packet datagram := by
  cases receipt <;> cases h
  all_goals exact ⟨fun _ _ _ => nofun, fun _ => nofun, fun _ _ => nofun⟩

end Receipt

namespace Node

variable {τ : Type} {g : Geometry} {node : Node τ} {now : Nat} {device : Device g}

/-! ## Looking at the clock -/

/-- The node after its fail safe jump has ended with `reason`: once it is refused the limit is
lifted. -/
def told (node : Node τ) (reason : Fault) : Node τ :=
  if reason = .bootloaderFailure then node
  else { node with config.timeout := NodeConfig.never }

theorem told_installer (node : Node τ) (reason : Fault) :
    (node.told reason).installer = node.installer := by
  rw [told]
  split <;> rfl

theorem told_endpoint (node : Node τ) (reason : Fault) :
    (node.told reason).endpoint = node.endpoint := by
  rw [told]
  split <;> rfl

theorem told_lastActivity (node : Node τ) (reason : Fault) :
    (node.told reason).lastActivity = node.lastActivity := by
  rw [told]
  split <;> rfl

theorem told_id (node : Node τ) (reason : Fault) :
    (node.told reason).config.id? = node.config.id? := by
  rw [told]
  split <;> rfl

theorem checkInactivity_prompt (h : node.silence now < node.config.timeout) :
    node.checkInactivity now = pure (.ok (), node.awake now) :=
  if_pos h

theorem checkInactivity_overdue (h : ¬node.silence now < node.config.timeout) :
    node.checkInactivity now = node.installer.failSafeJump >>= fun reason =>
      pure (.error reason, (node.awake now).told reason) := by
  have hleft : node.checkInactivity now = node.installer.failSafeJump >>= fun reason =>
      if reason = .bootloaderFailure then pure (.error reason, node.awake now)
      else pure (.error reason, { node.awake now with config.timeout := NodeConfig.never }) :=
    if_neg h
  rw [hleft]
  refine congrArg _ (funext fun reason => ?_)
  rw [told]
  split <;> rfl

theorem checkThen_prompt (h : node.silence now < node.config.timeout) (event : NodeEvent) :
    node.checkThen now event = pure (.ok event, node.awake now) := by
  rw [checkThen, checkInactivity_prompt h]
  rfl

theorem checkThen_overdue (h : ¬node.silence now < node.config.timeout) (event : NodeEvent) :
    node.checkThen now event = node.installer.failSafeJump >>= fun reason =>
      pure (.error reason, (node.awake now).told reason) := by
  rw [checkThen, checkInactivity_overdue h, bind_assoc]
  rfl

/-- What a node and its device keep while the node looks at its clock. -/
structure Idles (node : Node τ) (device : Device g) (next : Node τ) (after : Device g) : Prop where
  endpoint_eq : next.endpoint = node.endpoint
  installer_eq : next.installer = node.installer
  id_eq : next.config.id? = node.config.id?
  kept : device.flash.glitch = none → Flash.Kept device.flash after.flash

theorem idles_told (node : Node τ) (now : Nat) (device : Device g) :
    Idles node device ((node.awake now).told (node.installer.failSafeJump.run device).1)
      (node.installer.failSafeJump.run device).2 where
  endpoint_eq := told_endpoint _ _
  installer_eq := told_installer _ _
  id_eq := told_id _ _
  kept := (Installer.failSafeJump_spares node.installer).kept device

theorem idles_checkInactivity (node : Node τ) (now : Nat) (device : Device g) :
    Idles node device ((node.checkInactivity now).run device).1.2
      ((node.checkInactivity now).run device).2 := by
  by_cases hprompt : node.silence now < node.config.timeout
  · rw [checkInactivity_prompt hprompt]
    exact ⟨rfl, rfl, rfl, Flash.Kept.refl⟩
  · rw [checkInactivity_overdue hprompt, Procedure.run_bind]
    exact idles_told node now device

theorem idles_checkThen (node : Node τ) (now : Nat) (event : NodeEvent) (device : Device g) :
    Idles node device ((node.checkThen now event).run device).1.2
      ((node.checkThen now event).run device).2 := by
  by_cases hprompt : node.silence now < node.config.timeout
  · rw [checkThen_prompt hprompt]
    exact ⟨rfl, rfl, rfl, Flash.Kept.refl⟩
  · rw [checkThen_overdue hprompt, Procedure.run_bind]
    exact idles_told node now device

/-! ## What is received decides -/

variable [Transport τ]

/-- What a poll does, by what it receives; `endpoint` is what receiving has left. -/
inductive Polls (g : Geometry) (node : Node τ) (now : Nat) (endpoint : Endpoint τ) :
    Receipt → Procedure (Except Fault NodeEvent × Node τ) → Prop
  /-- No sign of life. -/
  | unheard {receipt : Receipt} {event : NodeEvent} (unheard : receipt.unheard? = some event) :
      Polls g node now endpoint receipt ({ node with endpoint }.checkThen now event)
  | linkFailed (error : LinkError) :
      Polls g node now endpoint (.linkFailed error)
        (pure (.error .transportFailure, { node with endpoint }.awake now))
  /-- The reassembler took or refused a packet. -/
  | absorbed {receipt : Receipt} {event : NodeEvent} (absorbed : receipt.Absorbed)
      (unanswered : event = .accepted ∨ ∃ fault, event = .rejected fault) :
      Polls g node now endpoint receipt (pure (.ok event, { node with endpoint }.stirred now))
  | spoiled (packet : Packet) (datagram : Datagram) :
      Polls g node now endpoint (.spoiled packet datagram)
        (pure (.ok (.spoiled datagram.id), ({ node with endpoint }.acknowledge datagram.kind
          datagram.id (.error .crcMismatch)).stirred now))
  | elsewhere (packet : Packet) (datagram : Datagram)
      (elsewhere : node.config.addressedElsewhere datagram.header.target = true) :
      Polls g node now endpoint (.delivered packet datagram)
        (pure (.ok (.notAddressed datagram.id), { node with endpoint }.stirred now))
  | handled (packet : Packet) (datagram : Datagram)
      (here : node.config.addressedElsewhere datagram.header.target = false) :
      Polls g node now endpoint (.delivered packet datagram)
        (node.installer.process g datagram >>= fun outcome =>
          pure (.ok (.handled datagram.kind datagram.id outcome.1),
            ({ node with endpoint, installer := outcome.2 }.acknowledge datagram.kind datagram.id
              outcome.1).stirred now))

theorem poll_polls (g : Geometry) (node : Node τ) (now : Nat) :
    Polls g node now node.endpoint.receive.2 node.endpoint.receive.1 (node.poll g now) := by
  rw [poll, show (node.awake now).endpoint = node.endpoint from rfl]
  generalize node.endpoint.receive = received
  obtain ⟨receipt, endpoint⟩ := received
  cases receipt with
  | silence => exact .unheard rfl
  | cutShort filled => exact .unheard rfl
  | linkFailed error => exact .linkFailed error
  | malformed fault => exact .unheard rfl
  | corrupt packet => exact .unheard rfl
  | unrouted packet => exact .unheard rfl
  | refused packet fault => exact .absorbed trivial (.inr ⟨fault, rfl⟩)
  | accepted packet => exact .absorbed trivial (.inl rfl)
  | spoiled packet datagram => exact .spoiled packet datagram
  | delivered packet datagram =>
    cases haddressed : node.config.addressedElsewhere datagram.header.target with
    | true =>
      have hhandle : { node.awake now with endpoint }.handle g datagram
          = pure (.notAddressed datagram.id, { node.awake now with endpoint }) :=
        if_pos haddressed
      simp only [hhandle]
      exact .elsewhere packet datagram haddressed
    -- Only here does the installer come in, and its result goes into the answer.
    | false =>
      have hhandle : { node.awake now with endpoint }.handle g datagram
          = node.installer.process g datagram >>= fun outcome =>
            pure (.handled datagram.kind datagram.id outcome.1,
              { node.awake now with endpoint, installer := outcome.2 }.acknowledge datagram.kind
                datagram.id outcome.1) :=
        if_neg (ne_true_of_eq_false haddressed)
      simp only [hhandle, bind_assoc, pure_bind]
      exact .handled packet datagram haddressed

/-- A poll changes neither the node's id nor, behind what it received, what is under way; and to the
link it does no more than write an answer. -/
theorem Polls.keeps {endpoint : Endpoint τ} {receipt : Receipt}
    {poll : Procedure (Except Fault NodeEvent × Node τ)}
    (h : Polls g node now endpoint receipt poll) (device : Device g) :
    (poll.run device).1.2.config.id? = node.config.id?
      ∧ (poll.run device).1.2.endpoint.assembly = endpoint.assembly
      ∧ ∀ {P : τ → Prop}, (∀ bytes link, P link → P (Transport.write bytes link).2) →
        (∀ link, P link → P (Transport.flush link).2) → P endpoint.link →
        P (poll.run device).1.2.endpoint.link := by
  cases h with
  | @unheard _ event unheard =>
    have hidles := idles_checkThen { node with endpoint } now event device
    refine ⟨hidles.id_eq, congrArg Endpoint.assembly hidles.endpoint_eq, fun _ _ hlast => ?_⟩
    rw [hidles.endpoint_eq]
    exact hlast
  | linkFailed error => exact ⟨rfl, rfl, fun _ _ hlast => hlast⟩
  | absorbed absorbed unanswered => exact ⟨rfl, rfl, fun _ _ hlast => hlast⟩
  -- Sending an answer is all that a node does to its link once it has received.
  | spoiled packet datagram =>
    exact ⟨rfl, Endpoint.assembly_send _ _,
      fun hwrite hflush => Endpoint.send_keeps hwrite hflush _⟩
  | elsewhere packet datagram elsewhere => exact ⟨rfl, rfl, fun _ _ hlast => hlast⟩
  | handled packet datagram here =>
    rw [Procedure.run_bind]
    exact ⟨rfl, Endpoint.assembly_send _ _,
      fun hwrite hflush => Endpoint.send_keeps hwrite hflush _⟩

end Node

/-! ## Answers -/

theorem Acknowledgement.fault?_ofResult (kind : Datagram.Kind) (id : UInt32)
    (result : Except Fault Unit) : (ofResult kind id result).fault? = Fault.ofResult? result := by
  cases result with
  | ok _ => rfl
  | error fault => exact Fault.ofCode?_code fault

/-- Two frames of which any fresh endpoint makes one acknowledgement, and this says that the
datagram of this kind and id has ended with `result`. -/
structure Tells (frames : List Bytes) (kind : Datagram.Kind) (id : UInt32)
    (result : Except Fault Unit) : Prop where
  frames_eq : frames = ((Acknowledgement.ofResult kind id result).toDatagram none).frames
  two : frames.length = 2
  heard : ∀ {σ : Type} [Transport σ] {pending : σ → Bytes}, Transport.Faithful pending →
    ∀ endpoint : Endpoint σ, endpoint.assembly = none → pending endpoint.link = frames.flatten →
      ∃ first last answer,
        (endpoint.receiveAll 3).1 = [.accepted first, .delivered last answer, .silence]
        ∧ answer.kind = .acknowledgement
        ∧ Acknowledgement.decode answer.data = .ok (.ofResult kind id result)
  fault_eq : (Acknowledgement.ofResult kind id result).fault? = Fault.ofResult? result

namespace Datagram

theorem decode_data_answer (datagram : Datagram) (result : Except Fault Unit) :
    Acknowledgement.decode (datagram.answer result).data
      = .ok (.ofResult datagram.kind datagram.id result) := by
  have hdata : (datagram.answer result).data
      = (Acknowledgement.ofResult datagram.kind datagram.id result).encode :=
    data_pack _ _ _ (by rw [Acknowledgement.length_encode]; decide)
  rw [hdata]
  exact Acknowledgement.decode_encode _ []

/-- The frames of an answer come off a link as the answer, and nothing behind it. -/
theorem receiveAll_answer {σ : Type} [Transport σ] {pending : σ → Bytes}
    (hlink : Transport.Faithful pending) (datagram : Datagram) (result : Except Fault Unit)
    {endpoint : Endpoint σ} (hassembly : endpoint.assembly = none)
    (hpending : pending endpoint.link = (datagram.answer result).frames.flatten) :
    (endpoint.receiveAll 3).1 = [.accepted ((datagram.answer result).packetAt 0),
      .delivered ((datagram.answer result).packetAt 1) (datagram.answer result), .silence] := by
  have hcount := datagram.packetCount_answer result
  obtain ⟨part, hheader, hdata⟩ := Assembly.take_pair (datagram.answer_whole result)
    (datagram.length_slots_answer result)
  rw [datagram.flatten_frames_answer result] at hpending
  -- The header is accepted, the data completes the answer, and then the link is dry.
  obtain ⟨hfirst, hpart, hrest⟩ := Endpoint.receive_signal hlink
    (show (Signal.frame 0).Allowed (datagram.answer result) none by
      rw [Signal.Allowed, hcount]; decide) List.not_mem_nil hpending
  rw [hassembly, show (Signal.frame 0).bytes (datagram.answer result)
    = ((datagram.answer result).packetAt 0).toFrame from rfl, hheader] at hfirst hpart
  obtain ⟨hlast, -, hnone⟩ := Endpoint.receive_signal hlink
    (show (Signal.frame 1).Allowed (datagram.answer result) none by
      rw [Signal.Allowed, hcount]; decide) List.not_mem_nil hrest
  rw [hpart, show (Signal.frame 1).bytes (datagram.answer result)
    = ((datagram.answer result).packetAt 1).toFrame from rfl, hdata] at hlast
  have hdry : endpoint.receive.2.receive.2.receive.1 = .silence :=
    (Endpoint.receive_noise hlink (by rw [hnone]; exact List.not_mem_nil)).1
  rw [Endpoint.receiveAll_framed (by rw [hfirst]; trivial), hfirst,
    Endpoint.receiveAll_framed (by rw [hlast]; trivial), hlast]
  show _ :: _ :: (Endpoint.receiveAll 1 _).1 = _
  rw [Endpoint.receiveAll]
  simp only [hdry]

theorem tells_answer (datagram : Datagram) (result : Except Fault Unit) :
    Tells (datagram.answer result).frames datagram.kind datagram.id result where
  frames_eq := rfl
  two := by
    rw [frames_eq, framesAt, List.length_map, List.length_range, packetCount_answer]
  heard := by
    intro σ _ pending hlink endpoint hassembly hpending
    exact ⟨_, _, _, receiveAll_answer hlink datagram result hassembly hpending, rfl,
      datagram.decode_data_answer result⟩
  fault_eq := Acknowledgement.fault?_ofResult _ _ _

end Datagram

namespace Node

variable {τ : Type} {g : Geometry} {sent : τ → Bytes} {room : τ → Nat} {node : Node τ} {now : Nat}
  {device : Device g}

/-- What a poll that received `receipt` has done, by the outcome that it reports. -/
inductive Answers (sent : τ → Bytes) (node : Node τ) (device : Device g)
    (poll : Procedure (Except Fault NodeEvent × Node τ)) :
    Receipt → Except Fault NodeEvent → Node τ → Device g → Prop
  /-- The datagram was handed to the installer, once, and its result was sent. -/
  | handled {packet : Packet} {datagram : Datagram} {result : Except Fault Unit} {next : Node τ}
      {after : Device g} {frames : List Bytes}
      (here : node.config.addressedElsewhere datagram.header.target = false)
      (process_eq : (node.installer.process g datagram).run device
        = ((result, next.installer), after))
      (requests_eq : poll.trace device = (node.installer.process g datagram).trace device)
      (tells : Tells frames datagram.kind datagram.id result)
      (sent_eq : sent next.endpoint.link = sent node.endpoint.link ++ frames.flatten) :
      Answers sent node device poll (.delivered packet datagram)
        (.ok (.handled datagram.kind datagram.id result)) next after
  /-- The datagram was dropped, and that was sent. -/
  | spoiled {packet : Packet} {datagram : Datagram} {next : Node τ} {frames : List Bytes}
      (installer_eq : next.installer = node.installer) (requests_eq : poll.trace device = [])
      (tells : Tells frames datagram.kind datagram.id (.error .crcMismatch))
      (sent_eq : sent next.endpoint.link = sent node.endpoint.link ++ frames.flatten) :
      Answers sent node device poll (.spoiled packet datagram) (.ok (.spoiled datagram.id)) next
        device
  /-- Nothing was sent, and nothing programmed or erased. -/
  | silent {receipt : Receipt} {outcome : Except Fault NodeEvent} {next : Node τ}
      {after : Device g}
      (unhandled : ∀ kind id result, outcome ≠ .ok (.handled kind id result))
      (unspoiled : ∀ id, outcome ≠ .ok (.spoiled id))
      (elsewhere : ∀ packet datagram, receipt = .delivered packet datagram →
        node.config.addressedElsewhere datagram.header.target = true)
      (installer_eq : next.installer = node.installer)
      (memory_eq : after.flash.memory = device.flash.memory)
      (spares : ∀ step ∈ poll.trace device, step.1.Spares)
      (sent_eq : sent next.endpoint.link = sent node.endpoint.link) :
      Answers sent node device poll receipt outcome next after

/-- A poll without any requests that is no answer. -/
theorem answers_pure {receipt : Receipt} {outcome : Except Fault NodeEvent} {next : Node τ}
    (hunhandled : ∀ kind id result, outcome ≠ .ok (.handled kind id result))
    (hunspoiled : ∀ id, outcome ≠ .ok (.spoiled id))
    (helsewhere : ∀ packet datagram, receipt = .delivered packet datagram →
      node.config.addressedElsewhere datagram.header.target = true)
    (hinstaller : next.installer = node.installer)
    (hsent : sent next.endpoint.link = sent node.endpoint.link) :
    Answers sent node device (pure (outcome, next)) receipt outcome next device :=
  .silent hunhandled hunspoiled helsewhere hinstaller rfl nofun hsent

/-- Looking at its clock a node sends nothing, and when it tries to leave it only reads. -/
theorem answers_checkThen {receipt : Receipt} {event : NodeEvent} {endpoint : Endpoint τ}
    (hunheard : receipt.unheard? = some event)
    (hsent : sent endpoint.link = sent node.endpoint.link) (now : Nat) (device : Device g) :
    let poll := { node with endpoint }.checkThen now event
    Answers sent node device poll receipt (poll.run device).1.1 (poll.run device).1.2
      (poll.run device).2 := by
  intro poll
  obtain ⟨hunhandled, hunspoiled, hundelivered⟩ := Receipt.unheard?_unanswered hunheard
  have helsewhere : ∀ packet datagram, receipt = .delivered packet datagram →
      node.config.addressedElsewhere datagram.header.target = true :=
    fun packet datagram heq => absurd heq (hundelivered packet datagram)
  by_cases hprompt : { node with endpoint }.silence now < node.config.timeout
  · have hpoll : poll = pure (.ok event, { node with endpoint }.awake now) :=
      checkThen_prompt hprompt event
    rw [hpoll]
    exact answers_pure (fun kind id result heq => hunhandled kind id result (Except.ok.inj heq))
      (fun id heq => hunspoiled id (Except.ok.inj heq)) helsewhere rfl hsent
  · have hpoll : poll = node.installer.failSafeJump >>= fun reason =>
        pure (.error reason, ({ node with endpoint }.awake now).told reason) :=
      checkThen_overdue hprompt event
    -- The jump may have been made, but what it asked of flash was to be read.
    have hspares := Installer.failSafeJump_spares node.installer
    rw [hpoll, Procedure.run_bind, Procedure.run_pure]
    refine .silent (fun _ _ _ => nofun) (fun _ => nofun) helsewhere (told_installer _ _)
      (hspares.memory_eq device) ?_ ?_
    · intro step hstep
      rw [Procedure.trace_bind] at hstep
      exact (hspares.ensures device).1 step ((List.mem_append.1 hstep).resolve_right nofun)
    · rw [told_endpoint]
      exact hsent

variable [Transport τ]

theorem Polls.answers (hsends : Transport.Sends sent room) {endpoint : Endpoint τ}
    {receipt : Receipt} {poll : Procedure (Except Fault NodeEvent × Node τ)}
    (h : Polls g node now endpoint receipt poll)
    (hsent : sent endpoint.link = sent node.endpoint.link)
    (hroom : 2 * Packet.frameSize ≤ room endpoint.link) (device : Device g) :
    Answers sent node device poll receipt (poll.run device).1.1 (poll.run device).1.2
      (poll.run device).2 := by
  have hsend : ∀ (datagram : Datagram) (result : Except Fault Unit),
      sent (endpoint.send (datagram.answer result)).2.link
        = sent node.endpoint.link ++ (datagram.answer result).frames.flatten := by
    intro datagram result
    rw [← hsent]
    exact (Endpoint.send_sends hsends
      (by rw [Datagram.length_flatten_frames_answer]; exact hroom)).1
  cases h with
  | unheard unheard => exact answers_checkThen unheard hsent now device
  | linkFailed error =>
    exact answers_pure (fun _ _ _ => nofun) (fun _ => nofun) (fun _ _ => nofun) rfl hsent
  | absorbed absorbed unanswered =>
    have hundelivered : ∀ packet datagram, receipt ≠ .delivered packet datagram := by
      rintro packet datagram rfl
      exact absorbed
    have helsewhere : ∀ packet datagram, receipt = .delivered packet datagram →
        node.config.addressedElsewhere datagram.header.target = true :=
      fun packet datagram heq => absurd heq (hundelivered packet datagram)
    rcases unanswered with rfl | ⟨fault, rfl⟩
    · exact answers_pure (fun _ _ _ => nofun) (fun _ => nofun) helsewhere rfl hsent
    · exact answers_pure (fun _ _ _ => nofun) (fun _ => nofun) helsewhere rfl hsent
  | spoiled packet datagram =>
    exact .spoiled rfl rfl (datagram.tells_answer _) (hsend datagram _)
  | elsewhere packet datagram elsewhere =>
    refine answers_pure (fun _ _ _ => nofun) (fun _ => nofun) ?_ rfl hsent
    rintro _ _ ⟨⟩
    exact elsewhere
  | handled packet datagram here =>
    rw [Procedure.run_bind]
    refine .handled here rfl ?_ (datagram.tells_answer _) (hsend datagram _)
    rw [Procedure.trace_bind]
    exact List.append_nil _

/-- Every datagram for a node is processed and answered exactly once. One poll of a node with room
for an answer on its link hands at most one datagram to the installer: the one that it received,
if it is not meant for another node. The node sends two frames that tell the result and makes no
other requests than the installer has made. A datagram with a wrong checksum is answered too. In
every other poll nothing is sent; the installer and the contents of flash stay as they were. -/
theorem poll_answers (hsends : Transport.Sends sent room) (node : Node τ) (now : Nat)
    (device : Device g) (hroom : 2 * Packet.frameSize ≤ room node.endpoint.link) :
    let poll := node.poll g now
    Answers sent node device poll node.endpoint.receive.1 (poll.run device).1.1
      (poll.run device).1.2 (poll.run device).2 := by
  obtain ⟨hsent, hkept⟩ := hsends.readFrame node.endpoint.link
  exact (poll_polls g node now).answers hsends hsent (Nat.le_trans hroom hkept) device

/-- A node with an inquiry on its link, which is a datagram without data and of a kind that no node
takes. -/
def inquired : Node Loopback where
  endpoint.link := {
    capacity := 512
    incoming := (Datagram.pack .verification 7 none []).frames.flatten }
  installer := .ready Pocket.layout .idle

theorem poll_answers_inquired :
    ∃ result next after frames,
      ((inquired.poll Pocket.geometry 0).run {} : _ × Device Pocket.geometry)
        = ((.ok (.handled .verification 7 result), next), after)
      ∧ Tells frames .verification 7 result
      ∧ next.endpoint.link.outgoing = frames.flatten := by
  have hreceive : inquired.endpoint.receive.1
      = .delivered ((Datagram.pack .verification 7 none []).packetAt 0)
        (.pack .verification 7 none []) := by decide +kernel
  obtain ⟨⟨⟨outcome, next⟩, after⟩, hrun⟩ :
      ∃ run, (inquired.poll Pocket.geometry 0).run ({} : Device Pocket.geometry) = run := ⟨_, rfl⟩
  have hanswers := poll_answers Transport.loopback_sends inquired 0
    ({} : Device Pocket.geometry) (by decide)
  simp only [hrun, hreceive] at hanswers ⊢
  cases hanswers with
  | handled here process_eq requests_eq tells sent_eq => exact ⟨_, _, _, _, rfl, tells, sent_eq⟩
  | silent unhandled unspoiled elsewhere => cases elsewhere _ _ rfl

end Node

end Reflash
