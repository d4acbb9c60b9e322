/-
  Reflash.Proofs.Readiness

  A node that waits for an update takes one, whatever it has been through. Over any run
  flash backs the state of the installer, and what is under way on the link is never
  complete. If then nothing stands in the way of the announcement, and the node has
  nothing of any other update, the frames of an update lead to the image in the active
  region: each poll takes one of them, and calls at any other times do no harm.
-/
import Reflash.Proofs.Bystander
import Reflash.Proofs.Install.Completion

namespace Reflash

/-! ## Frames of several datagrams -/

namespace Assembly

/-- Frames off which these datagrams come, one after the other, and nothing else. -/
inductive Yields : Assembly → List Bytes → List Datagram → Prop
  | nil (assembly : Assembly) : Yields assembly [] []
  | absorbed {assembly next : Assembly} {receipt : Receipt} {packet : Packet}
      {frames : List Bytes} {datagrams : List Datagram}
      (take_eq : assembly.take packet.toFrame = (receipt, next)) (absorbed : receipt.Absorbed)
      (rest : Yields next frames datagrams) : Yields assembly (packet.toFrame :: frames) datagrams
  | delivered {assembly : Assembly} {packet last : Packet} {datagram : Datagram}
      {frames : List Bytes} {datagrams : List Datagram}
      (take_eq : assembly.take packet.toFrame = (.delivered last datagram, none))
      (rest : Yields none frames datagrams) :
      Yields assembly (packet.toFrame :: frames) (datagram :: datagrams)

variable {whole : Datagram} {assembly last : Assembly} {frames more : List Bytes}
  {datagrams : List Datagram}

theorem Takes.yields {delivered : Bool} (h : Takes whole assembly frames delivered last)
    (hframes : ∀ frame ∈ frames, ∃ packet : Packet, frame = packet.toFrame)
    (hmore : Yields last more datagrams) :
    Yields assembly (frames ++ more) (bif delivered then whole :: datagrams else datagrams) := by
  induction h with
  | nil => exact hmore
  | absorbed take_eq absorbed rest ih =>
    obtain ⟨packet, rfl⟩ := hframes _ List.mem_cons_self
    exact .absorbed take_eq absorbed
      (ih (fun frame hmem => hframes frame (List.mem_cons_of_mem _ hmem)) hmore)
  | delivered take_eq rest ih =>
    obtain ⟨packet, rfl⟩ := hframes _ List.mem_cons_self
    exact .delivered take_eq
      (ih (fun frame hmem => hframes frame (List.mem_cons_of_mem _ hmem)) hmore)

/-- The frames of a datagram yield it, unless another one with its id is under way. -/
theorem yields_frames (h : whole.Whole)
    (hclear : ∀ part, assembly = some part → part.header.id = whole.header.id →
      part.Fragment whole) (hmore : Yields none more datagrams) :
    Yields assembly (whole.frames ++ more) (whole :: datagrams) := by
  have hframes : ∀ frame ∈ whole.frames, ∃ packet : Packet, frame = packet.toFrame := by
    intro frame hmem
    obtain ⟨packet, -, rfl⟩ := List.mem_map.1 hmem
    exact ⟨packet, rfl⟩
  cases hholds : assembly.holds whole.header.id with
  | true =>
    have hpartial : assembly.Partial whole := by
      obtain ⟨part, rfl⟩ : ∃ part, assembly = some part := by
        cases assembly with
        | none => cases hholds
        | some part => exact ⟨part, rfl⟩
      exact .inr ⟨part, rfl, hclear part rfl (beq_iff_eq.1 hholds)⟩
    exact (takes_all h hpartial).yields hframes hmore
  | false =>
    -- The header starts the datagram, whatever else is under way, as it does from nothing.
    have htakes := takes_all h (.inl rfl)
    rw [Datagram.frames_eq, Datagram.packetCount, List.range_succ_eq_map] at htakes hframes ⊢
    cases htakes with
    | absorbed take_eq absorbed rest =>
      rw [take_header_none h] at take_eq
      cases take_eq
      exact .absorbed (take_packetAt (route?_header h.check_eq hholds)
        (Datagram.awaiting_not_complete h)) trivial
        (rest.yields (fun frame hmem => hframes frame (List.mem_cons_of_mem _ hmem)) hmore)
    | delivered take_eq rest =>
      rw [take_header_none h] at take_eq
      cases take_eq

theorem yields_flatMap {datagrams : List Datagram} (h : ∀ datagram ∈ datagrams, datagram.Whole) :
    Yields none (datagrams.flatMap Datagram.frames) datagrams := by
  induction datagrams with
  | nil => exact .nil none
  | cons datagram datagrams ih =>
    exact yields_frames (h datagram List.mem_cons_self) nofun
      (ih fun other hmem => h other (List.mem_cons_of_mem _ hmem))

end Assembly

/-- What of some datagrams is still to come once this was received. -/
inductive Receipt.Leaves : Receipt → List Datagram → List Datagram → Prop
  | all {receipt : Receipt} {datagrams : List Datagram}
      (undelivered : ∀ packet datagram, receipt ≠ .delivered packet datagram) :
      Leaves receipt datagrams datagrams
  | behind {packet : Packet} {datagram : Datagram} {rest : List Datagram} :
      Leaves (.delivered packet datagram) (datagram :: rest) rest

theorem Receipt.Leaves.subset {receipt : Receipt} {datagrams rest : List Datagram}
    (h : receipt.Leaves datagrams rest) {datagram : Datagram} (hmem : datagram ∈ rest) :
    datagram ∈ datagrams := by
  cases h with
  | all => exact hmem
  | behind => exact List.mem_cons_of_mem _ hmem

/-- The first of the frames that wait on a link is taken; where none waits, only noise is passed
over. -/
theorem Endpoint.receive_yields {τ : Type} [Transport τ] {pending : τ → Bytes}
    (hlink : Transport.Faithful pending) {endpoint : Endpoint τ} {noise : Bytes}
    {waiting coming : List Bytes} {datagrams : List Datagram}
    (hnoise : Packet.startMarker ∉ noise)
    (hpending : pending endpoint.link = noise ++ waiting.flatten)
    (hyields : endpoint.assembly.Yields (waiting ++ coming) datagrams) :
    pending endpoint.receive.2.link = waiting.tail.flatten
      ∧ ∃ rest, endpoint.receive.2.assembly.Yields (waiting.tail ++ coming) rest
        ∧ endpoint.receive.1.Leaves datagrams rest := by
  cases waiting with
  | nil =>
    rw [List.flatten_nil, List.append_nil] at hpending
    rw [← hpending] at hnoise
    obtain ⟨hreceipt, hassembly, hrest⟩ := receive_noise hlink hnoise
    rw [hreceipt, hassembly]
    exact ⟨hrest, datagrams, hyields, .all nofun⟩
  | cons frame waiting =>
    -- The link brings the first frame whole, so that the reassembler alone decides.
    have hreceive : ∀ packet : Packet, frame = packet.toFrame →
        endpoint.receive.1 = (endpoint.assembly.take packet.toFrame).1
          ∧ endpoint.receive.2.assembly = (endpoint.assembly.take packet.toFrame).2
          ∧ pending endpoint.receive.2.link = waiting.flatten := by
      rintro packet rfl
      obtain ⟨body, hbytes⟩ : ∃ body, packet.toFrame = Packet.startMarker :: body := ⟨_, rfl⟩
      have hlength := packet.length_toFrame
      rw [List.flatten_cons, ← List.append_assoc] at hpending
      rw [hbytes] at hlength hpending ⊢
      exact receive_block hlink hnoise hlength hpending
    rw [List.cons_append] at hyields
    cases hyields with
    | absorbed take_eq absorbed rest =>
      obtain ⟨hreceipt, hassembly, hrest⟩ := hreceive _ rfl
      rw [take_eq] at hreceipt hassembly
      rw [hreceipt, hassembly]
      refine ⟨hrest, datagrams, rest, .all ?_⟩
      rintro packet datagram rfl
      exact absorbed
    | delivered take_eq rest =>
      obtain ⟨hreceipt, hassembly, hrest⟩ := hreceive _ rfl
      rw [take_eq] at hreceipt hassembly
      rw [hreceipt, hassembly]
      exact ⟨hrest, _, rest, .behind⟩

theorem NodeConfig.addressedElsewhere_congr {config config' : NodeConfig}
    (h : config.id? = config'.id?) (target : Option UInt8) :
    config.addressedElsewhere target = config'.addressedElsewhere target := by
  simp only [addressedElsewhere, h]

/-! ## What a call comes to -/

namespace Node

variable {τ : Type} {g : Geometry} {node : Node τ} {device : Device g}

/-- What a call in which `receipt?` is received comes to for the installer: it is handed the
datagram that was received, or nothing is programmed or erased. -/
inductive Serves (node : Node τ) (device : Device g) :
    Option Receipt → Installer → Device g → Prop
  | handled {packet : Packet} {datagram : Datagram} {result : Except Fault Unit}
      {installer : Installer} {after : Device g}
      (here : node.config.addressedElsewhere datagram.header.target = false)
      (process_eq : (node.installer.process g datagram).run device
        = ((result, installer), after)) :
      Serves node device (some (.delivered packet datagram)) installer after
  | alone {receipt? : Option Receipt} {after : Device g}
      (elsewhere : ∀ packet datagram, receipt? = some (.delivered packet datagram) →
        node.config.addressedElsewhere datagram.header.target = true)
      (kept : device.flash.glitch = none → Flash.Kept device.flash after.flash) :
      Serves node device receipt? node.installer after

namespace Serves

variable {layout : Layout} {receipt? : Option Receipt} {installer : Installer} {stage : Stage}
  {after : Device g}

/-- What is served stays backed by flash. -/
theorem backed (hg : layout.Paged g) (hu : layout.Usable g)
    (h : node.Serves device receipt? installer after)
    (hstage : node.installer = .ready layout stage) (hbacked : stage.Backed layout device.flash)
    (hglitch : device.flash.glitch = none) :
    ∃ stage', installer = .ready layout stage' ∧ stage'.Backed layout after.flash
      ∧ after.flash.glitch = none := by
  cases h with
  | @handled packet datagram result _ _ here process_eq =>
    have hensures : (Installer.process g (.ready layout stage) datagram).Ensures device _ _ :=
      Installer.process_ensures hg hu hbacked hglitch
    obtain ⟨stage', hstage', hbacked', hglitch', -⟩ := hensures.2
    rw [hstage] at process_eq
    rw [process_eq] at hstage' hbacked' hglitch'
    exact ⟨stage', hstage', hbacked', hglitch'⟩
  | alone elsewhere kept =>
    have hkept := kept hglitch
    exact ⟨stage, hstage, hbacked.congr hkept.memory_eq, hkept.glitch_eq⟩

/-- What is due stays due with what is left. -/
theorem due (hg : layout.Paged g) (hu : layout.Usable g) {update : CompleteUpdate g layout}
    {receipt : Receipt} {datagrams rest : List Datagram}
    (h : node.Serves device (some receipt) installer after)
    (hleaves : receipt.Leaves datagrams rest) (hstage : node.installer = .ready layout stage)
    (hdue : update.Due stage device.flash datagrams)
    (hhere : ∀ datagram ∈ datagrams,
      node.config.addressedElsewhere datagram.header.target = false) :
    ∃ stage', installer = .ready layout stage' ∧ update.Due stage' after.flash rest := by
  cases h with
  | handled here process_eq =>
    cases hleaves with
    | all undelivered => exact absurd rfl (undelivered _ _)
    | behind =>
      rw [hstage, Installer.process_run] at process_eq
      cases process_eq
      exact ⟨_, rfl, hdue.respond hg hu⟩
  | alone elsewhere kept =>
    -- A datagram of the update is meant for this node, so it is not left alone with it.
    cases hleaves with
    | all undelivered => exact ⟨stage, hstage, hdue.kept (kept hdue.glitch_eq)⟩
    | behind =>
      have hthere := elsewhere _ _ rfl
      rw [hhere _ List.mem_cons_self] at hthere
      cases hthere

end Serves

variable [Transport τ]

/-- What a call leaves of a node and its device. -/
structure Comes (node : Node τ) (device : Device g) (call : Call) (next : Node τ)
    (after : Device g) : Prop where
  id_eq : next.config.id? = node.config.id?
  assembly_eq : next.endpoint.assembly = (node.listened call).assembly
  serves : node.Serves device (node.received? call) next.installer after
  /-- Behind what was read, the link has at most been written to. -/
  link : ∀ {P : τ → Prop}, (∀ bytes link, P link → P (Transport.write bytes link).2) →
    (∀ link, P link → P (Transport.flush link).2) → P (node.listened call).link →
    P next.endpoint.link

theorem Idles.comes {next : Node τ} {after : Device g} (h : node.Idles device next after) :
    node.Comes device .check next after where
  id_eq := h.id_eq
  assembly_eq := congrArg Endpoint.assembly h.endpoint_eq
  serves := by
    rw [h.installer_eq]
    exact .alone nofun h.kept
  link _ _ hlast := by
    rw [h.endpoint_eq]
    exact hlast

theorem Polls.serves {now : Nat} {endpoint : Endpoint τ} {receipt : Receipt}
    {poll : Procedure (Except Fault NodeEvent × Node τ)}
    (h : Polls g node now endpoint receipt poll) (device : Device g) :
    node.Serves device (some receipt) (poll.run device).1.2.installer (poll.run device).2 := by
  cases h with
  | @unheard _ event unheard =>
    obtain ⟨-, -, hundelivered⟩ := Receipt.unheard?_unanswered unheard
    have hidles := idles_checkThen { node with endpoint } now event device
    rw [hidles.installer_eq]
    exact .alone (fun packet datagram heq =>
      absurd (Option.some.inj heq) (hundelivered packet datagram)) hidles.kept
  | linkFailed error => exact .alone nofun Flash.Kept.refl
  | absorbed absorbed unanswered =>
    refine .alone ?_ Flash.Kept.refl
    rintro packet datagram ⟨⟩
    exact absorbed.elim
  | spoiled packet datagram => exact .alone nofun Flash.Kept.refl
  | elsewhere packet datagram elsewhere =>
    refine .alone ?_ Flash.Kept.refl
    rintro _ _ ⟨⟩
    exact elsewhere
  | handled packet datagram here =>
    rw [Procedure.run_bind]
    exact .handled here rfl

theorem called_comes (node : Node τ) (now : Nat) (call : Call) (device : Device g) :
    let after := (node.called g now call).run device
    node.Comes device call after.1.2 after.2 := by
  cases call with
  | check => exact (idles_checkInactivity node now device).comes
  | poll =>
    have hpolls := poll_polls g node now
    obtain ⟨hid, hassembly, hlink⟩ := hpolls.keeps device
    rw [called, Procedure.run_bind]
    exact ⟨hid, hassembly, hpolls.serves device, hlink⟩

end Node

/-! ## A node that is served an update -/

namespace Watch

variable {τ : Type} {g : Geometry} {layout : Layout} {watch : Watch τ g} {id? : Option UInt8}
  {update : CompleteUpdate g layout} {pending : τ → Bytes} {waiting coming frames : List Bytes}

/-- Flash backs what the installer takes to be done, and what is under way is incomplete. -/
structure Ready (layout : Layout) (id? : Option UInt8) (watch : Watch τ g) : Prop where
  id_eq : watch.node.config.id? = id?
  incomplete : watch.node.endpoint.assembly.isComplete = false
  backed : ∃ stage, watch.node.installer = .ready layout stage
    ∧ stage.Backed layout watch.device.flash ∧ watch.device.flash.glitch = none

/-- The frames on the link, with those that are still to come, finish the update. -/
structure Served (update : CompleteUpdate g layout) (pending : τ → Bytes) (watch : Watch τ g)
    (waiting coming : List Bytes) : Prop where
  pending_eq : ∃ noise, Packet.startMarker ∉ noise
    ∧ pending watch.node.endpoint.link = noise ++ waiting.flatten
  due : ∃ stage datagrams, watch.node.installer = .ready layout stage
    ∧ watch.node.endpoint.assembly.Yields (waiting ++ coming) datagrams
    ∧ update.Due stage watch.device.flash datagrams
    ∧ ∀ datagram ∈ datagrams,
      watch.node.config.addressedElsewhere datagram.header.target = false

/-- A ready node is served an update from its announcement on, if nothing stands in the way. -/
theorem Ready.served (h : watch.Ready layout watch.node.config.id?)
    (hfault : watch.device.flash.fault = none)
    (hquiet : Packet.startMarker ∉ pending watch.node.endpoint.link)
    (hpart : ∀ part, watch.node.endpoint.assembly = some part →
      part.header.id = update.announcement.header.id → part.PartOf update.announcement)
    (hbegun : update.Begun watch.device.flash watch.node.installer.stage)
    (hhere : ∀ datagram ∈ update.datagrams,
      watch.node.config.addressedElsewhere datagram.header.target = false) :
    watch.Served update pending [] update.frames := by
  obtain ⟨stage, hstage, hbacked, hglitch⟩ := h.backed
  rw [hstage] at hbegun
  refine ⟨⟨_, hquiet, (List.append_nil _).symm⟩, stage, update.datagrams, hstage, ?_,
    hbegun.due hbacked hglitch hfault, hhere⟩
  -- The announcement comes through although something is under way, and the rest behind it.
  obtain ⟨hfirst, hothers⟩ := List.forall_mem_cons.1 update.whole
  refine Assembly.yields_frames hfirst ?_ (Assembly.yields_flatMap hothers)
  intro part heq hid
  have hincomplete := h.incomplete
  rw [heq] at hincomplete
  exact ⟨hpart part heq hid, hincomplete⟩

/-- Once no frame is left, the image is installed. -/
theorem Served.finished (h : watch.Served update pending [] []) :
    watch.node.installer = .ready layout (.installed update.manifest)
      ∧ watch.device.flash.slice layout.active update.image.length = update.image := by
  obtain ⟨-, stage, datagrams, hstage, hyields, hdue, -⟩ := h
  cases hyields
  obtain ⟨rfl, hslice⟩ := hdue.finished
  exact ⟨hstage, hslice⟩

variable [Transport τ]

/-! ## Any run -/

theorem Ready.step (hg : layout.Paged g) (hu : layout.Usable g) (h : watch.Ready layout id?)
    (occurrence : Occurrence τ) : (watch.step occurrence).Ready layout id? := by
  obtain ⟨hid, hincomplete, stage, hstage, hbacked, hglitch⟩ := h
  cases occurrence with
  | arrival link => exact ⟨hid, hincomplete, stage, hstage, hbacked, hglitch⟩
  | mishap fault => exact ⟨hid, hincomplete, stage, hstage, hbacked.congr rfl, hglitch⟩
  | call call now =>
    have hcomes := watch.node.called_comes now call watch.device
    -- Receiving keeps it incomplete, and what follows in the call is not about it.
    have hlistened : (watch.node.listened call).assembly.isComplete = false := by
      cases call with
      | check => exact hincomplete
      | poll => exact watch.node.endpoint.receive_advances.incomplete hincomplete
    rw [← hcomes.assembly_eq] at hlistened
    exact ⟨hcomes.id_eq.trans hid, hlistened, hcomes.serves.backed hg hu hstage hbacked hglitch⟩

theorem Ready.run (hg : layout.Paged g) (hu : layout.Usable g) (h : watch.Ready layout id?)
    (occurrences : List (Occurrence τ)) : (watch.run occurrences).Ready layout id? := by
  induction occurrences generalizing watch with
  | nil => exact h
  | cons occurrence occurrences ih => exact ih (h.step hg hu occurrence)

/-! ## The frames of an update -/

theorem Served.arrival {link : τ} {frame : Bytes}
    (h : watch.Served update pending waiting (frame :: coming))
    (hlink : pending link = pending watch.node.endpoint.link ++ frame) :
    (watch.step (.arrival link)).Served update pending (waiting ++ [frame]) coming := by
  obtain ⟨⟨noise, hnoise, hpending⟩, stage, datagrams, hstage, hyields, hdue, hhere⟩ := h
  refine ⟨⟨noise, hnoise, ?_⟩, stage, datagrams, hstage, ?_, hdue, hhere⟩
  · show pending link = _
    rw [hlink, hpending, List.flatten_append, List.append_assoc, List.flatten_singleton]
  · rw [List.append_assoc]
    exact hyields

/-- Looking at the clock does not get in the way. -/
theorem Served.check (h : watch.Served update pending waiting coming) (now : Nat) :
    (watch.step (.call .check now)).Served update pending waiting coming := by
  obtain ⟨hpending, stage, datagrams, hstage, hyields, hdue, hhere⟩ := h
  have hidles : watch.node.Idles watch.device (watch.step (.call .check now)).node
      (watch.step (.call .check now)).device := Node.idles_checkInactivity _ now _
  refine ⟨?_, stage, datagrams, hidles.installer_eq.trans hstage, ?_,
    hdue.kept (hidles.kept hdue.glitch_eq), ?_⟩
  · rw [hidles.endpoint_eq]
    exact hpending
  · rw [hidles.endpoint_eq]
    exact hyields
  · intro datagram hmem
    rw [NodeConfig.addressedElsewhere_congr hidles.id_eq]
    exact hhere datagram hmem

/-- A poll takes the first of the waiting frames, if there is one. -/
theorem Served.poll (hg : layout.Paged g) (hu : layout.Usable g)
    (hlink : Transport.Duplex pending) (h : watch.Served update pending waiting coming)
    (now : Nat) :
    (watch.step (.call .poll now)).Served update pending waiting.tail coming := by
  obtain ⟨⟨noise, hnoise, hpending⟩, stage, datagrams, hstage, hyields, hdue, hhere⟩ := h
  have hcomes : watch.node.Comes watch.device .poll (watch.step (.call .poll now)).node
      (watch.step (.call .poll now)).device := watch.node.called_comes now .poll watch.device
  obtain ⟨hrest, rest, hyields', hleaves⟩ :=
    Endpoint.receive_yields hlink.toFaithful hnoise hpending hyields
  obtain ⟨stage', hstage', hdue'⟩ := hcomes.serves.due hg hu hleaves hstage hdue hhere
  refine ⟨⟨[], List.not_mem_nil, ?_⟩, stage', rest, hstage', ?_, hdue', ?_⟩
  · exact hcomes.link (P := fun link => pending link = waiting.tail.flatten)
      (fun bytes link hlast => (hlink.write_pending bytes link).trans hlast)
      (fun link hlast => (hlink.flush_pending link).trans hlast) hrest
  · rw [hcomes.assembly_eq]
    exact hyields'
  · intro datagram hmem
    rw [NodeConfig.addressedElsewhere_congr hcomes.id_eq]
    exact hhere datagram (hleaves.subset hmem)

/-- Frames come in whole and in order, with calls at any times in between. -/
inductive Fed (pending : τ → Bytes) : Watch τ g → List Bytes → Watch τ g → Prop
  | done (watch : Watch τ g) : Fed pending watch [] watch
  | arrival {watch last : Watch τ g} {link : τ} {frame : Bytes} {frames : List Bytes}
      (pending_eq : pending link = pending watch.node.endpoint.link ++ frame)
      (rest : Fed pending (watch.step (.arrival link)) frames last) :
      Fed pending watch (frame :: frames) last
  | call {watch last : Watch τ g} {frames : List Bytes} (call : Call) (now : Nat)
      (rest : Fed pending (watch.step (.call call now)) frames last) :
      Fed pending watch frames last

theorem Served.fed (hg : layout.Paged g) (hu : layout.Usable g)
    (hlink : Transport.Duplex pending) {last : Watch τ g}
    (h : watch.Served update pending waiting frames) (hfed : Fed pending watch frames last) :
    ∃ waiting', waiting'.length ≤ waiting.length + frames.length
      ∧ last.Served update pending waiting' [] := by
  -- By induction on what comes in: a frame makes what waits longer, and a call never does.
  induction hfed generalizing waiting with
  | done watch => exact ⟨waiting, Nat.le_refl _, h⟩
  | arrival pending_eq rest ih =>
    obtain ⟨waiting', hlength, hserved⟩ := ih (h.arrival pending_eq)
    rw [List.length_append, List.length_singleton] at hlength
    exact ⟨waiting', by rw [List.length_cons]; omega, hserved⟩
  | call call now rest ih =>
    cases call with
    | check => exact ih (h.check now)
    | poll =>
      obtain ⟨waiting', hlength, hserved⟩ := ih (h.poll hg hu hlink now)
      rw [List.length_tail] at hlength
      exact ⟨waiting', by omega, hserved⟩

theorem Served.pollEach (hg : layout.Paged g) (hu : layout.Usable g)
    (hlink : Transport.Duplex pending) {times : List Nat}
    (h : watch.Served update pending waiting coming) (htimes : waiting.length ≤ times.length) :
    (watch.pollEach times).Served update pending [] coming := by
  induction times generalizing watch waiting with
  | nil =>
    obtain rfl : waiting = [] := List.length_eq_zero_iff.1 (Nat.le_zero.1 htimes)
    exact h
  | cons now times ih =>
    refine ih (h.poll hg hu hlink now) ?_
    rw [List.length_tail]
    rw [List.length_cons] at htimes
    omega

/-- A node that waits for an update takes one, whatever it has been through. After any run, and
whether it has been refused to leave or not: if nothing is planned to fail any more, no start of a
frame is left on the link, no other datagram with the id of the announcement is under way, and the
node has nothing of an update, or has begun with this very one, then the frames of the update lead
to the image in the active region. They come in whole, the node is called at any times while they
do, and then it is polled as often as there are frames. -/
theorem update_finishes (hg : layout.Paged g) (hu : layout.Usable g)
    (hlink : Transport.Duplex pending) {node : Node τ} {device : Device g}
    (hready : node.installer = .ready layout .idle) (hidle : node.endpoint.assembly = none)
    (hglitch : device.flash.glitch = none) (occurrences : List (Occurrence τ))
    (update : CompleteUpdate g layout)
    (hhere : ∀ datagram ∈ update.datagrams,
      node.config.addressedElsewhere datagram.header.target = false) :
    let watch := run ⟨node, device, []⟩ occurrences
    watch.device.flash.fault = none →
    Packet.startMarker ∉ pending watch.node.endpoint.link →
    (∀ part, watch.node.endpoint.assembly = some part →
      part.header.id = update.announcement.header.id → part.PartOf update.announcement) →
    update.Begun watch.device.flash watch.node.installer.stage →
    ∀ fed times, Fed pending watch update.frames fed → update.frames.length ≤ times.length →
      (fed.pollEach times).node.installer = .ready layout (.installed update.manifest)
        ∧ (fed.pollEach times).device.flash.slice layout.active update.image.length
          = update.image := by
  intro watch hfault hquiet hpart hbegun fed times hfed htimes
  have hstart : (⟨node, device, []⟩ : Watch τ g).Ready layout node.config.id? := by
    refine ⟨rfl, ?_, .idle, hready, trivial, hglitch⟩
    rw [hidle]
    rfl
  have hwatch : watch.Ready layout node.config.id? := hstart.run hg hu occurrences
  have hserved : watch.Served update pending [] update.frames := by
    refine Ready.served (hwatch.id_eq.symm ▸ hwatch) hfault hquiet hpart hbegun ?_
    intro datagram hmem
    rw [NodeConfig.addressedElsewhere_congr hwatch.id_eq]
    exact hhere datagram hmem
  obtain ⟨waiting, hlength, hlast⟩ := hserved.fed hg hu hlink hfed
  rw [List.length_nil, Nat.zero_add] at hlength
  exact (hlast.pollEach hg hu hlink (Nat.le_trans hlength htimes)).finished

/-! ## Nodes that were left alone -/

/-- Frames come in on a link held in memory. -/
def delivered (watch : Watch Loopback g) (frames : List Bytes) : Watch Loopback g :=
  frames.foldl (fun watch frame => watch.step (.arrival { watch.node.endpoint.link with
    incoming := watch.node.endpoint.link.incoming ++ frame })) watch

theorem fed_delivered (watch : Watch Loopback g) (frames : List Bytes) :
    Fed Loopback.incoming watch frames (watch.delivered frames) := by
  induction frames generalizing watch with
  | nil => exact .done watch
  | cons frame frames ih => exact .arrival rfl (ih _)

/-- A node that waits for an update, with some bytes on its link. -/
def vacant (layout : Layout) (incoming : Bytes) : Node Loopback where
  endpoint.link := { capacity := 2048, incoming }
  installer := .ready layout .idle
  config.timeout := 500

/-- The node is polled so many times, and then left alone until it wants to leave. -/
def leftAlone (device : Device g) (layout : Layout) (incoming : Bytes) (polls : Nat) :
    Watch Loopback g :=
  run ⟨vacant layout incoming, device, []⟩
    (List.replicate polls (.call .poll 0) ++ [.call .check 0, .call .check 500])

/-- A node of a pocket-sized part with nothing on it. -/
def pocketAlone (incoming : Bytes) (polls : Nat) : Watch Loopback Pocket.geometry :=
  leftAlone {} Pocket.layout incoming polls

/-- The update of a pocket-sized part. -/
def pocketShipment : CompleteUpdate Pocket.geometry Pocket.layout :=
  .single (.ofBytes [0x01]) [0x01, 0x02, 0x03, 0x04] (by decide) (by decide) (by decide)

/-- A host has announced the update and sent nothing more. -/
def announced : Watch Loopback Pocket.geometry :=
  pocketAlone pocketShipment.announcement.frames.flatten 2

theorem announced_stage :
    announced.node.installer.stage = .receiving pocketShipment.manifest 0 0
      ∧ announced.reports.map Report.fault? = [some .flashVerificationFailed, none, none, none]
      ∧ announced.node.endpoint.assembly = none
      ∧ announced.node.endpoint.link.incoming = [] ∧ announced.device.flash.fault = none := by
  decide +kernel

theorem update_finishes_announced :
    announced.reports.map Report.fault? = [some .flashVerificationFailed, none, none, none]
      ∧ ((announced.delivered pocketShipment.frames).pollEach
          (List.replicate 6 600)).device.flash.slice Pocket.layout.active 4
        = [0x01, 0x02, 0x03, 0x04] := by
  obtain ⟨hstage, hrefused, hassembly, hincoming, hfault⟩ := announced_stage
  refine ⟨hrefused, (update_finishes (Pocket.geometry_regular.paged _) Pocket.layout_usable
    Transport.loopback_duplex rfl rfl rfl _ pocketShipment ?_ hfault ?_ ?_ ?_ _ _
    (fed_delivered announced _) (by decide)).2⟩
  · intro datagram _
    rfl
  · show Packet.startMarker ∉ announced.node.endpoint.link.incoming
    rw [hincoming]
    exact List.not_mem_nil
  · intro part hpart
    exact absurd (hassembly.symm.trans hpart) nofun
  · show pocketShipment.Begun announced.device.flash announced.node.installer.stage
    rw [hstage]
    exact .chunks (show pocketShipment.chunks = [] ++ pocketShipment.chunks from rfl)
      (Flash.slice_zero _ _)

/-- An update of twice the length. -/
def longerShipment : CompleteUpdate Pocket.geometry Pocket.layout :=
  .single (.ofBytes [0x02]) [0x01, 0x02, 0x03, 0x04, 0x05, 0x06, 0x07, 0x08] (by decide)
    (by decide) (by decide)

/-- A part whose pages are not whole writes, and a layout for it. -/
def oddGeometry : Geometry where
  writeSize := 4
  eraseSize := 6
  capacity := 24

def oddLayout : Layout where
  staging := 0
  active := 12
  regionSize := 12

/-- A part whose pages are too small for a record, and a layout for it. -/
def smallGeometry : Geometry where
  writeSize := 4
  eraseSize := 16
  capacity := 64

def smallLayout : Layout where
  staging := 0
  active := 16
  regionSize := 16
  record? := some 32

/-- The node was refused to leave for want of an application, and nothing is planned to fail; yet it
does not install what these datagrams bring. -/
def Misses (watch : Watch Loopback g) (datagrams : List Datagram) (manifest : Manifest) : Prop :=
  watch.reports.head?.bind Report.fault? = some .flashVerificationFailed
    ∧ watch.device.flash.fault = none
    ∧ ((watch.delivered (datagrams.flatMap Datagram.frames)).pollEach
        (List.replicate 8 600)).node.installer.stage ≠ .installed manifest

instance (watch : Watch Loopback g) (datagrams : List Datagram) (manifest : Manifest) :
    Decidable (watch.Misses datagrams manifest) :=
  inferInstanceAs (Decidable (_ ∧ _))

/-- What stands in the way of an update: that the node has begun with another one, that it has the
header of another announcement with the same id, and that the start of a frame is left on its link.
An empty image is never taken, and no update is finished where a page is not made of whole writes,
or where a record does not fit into its page. -/
theorem update_obstructed :
    (pocketAlone longerShipment.announcement.frames.flatten 2).Misses
        pocketShipment.datagrams pocketShipment.manifest
      ∧ (pocketAlone (longerShipment.announcement.packetAt 0).toFrame 1).Misses
        pocketShipment.datagrams pocketShipment.manifest
      ∧ (pocketAlone [Packet.startMarker] 0).Misses
        pocketShipment.datagrams pocketShipment.manifest
      ∧ (pocketAlone [] 0).Misses
        [Manifest.toDatagram { size := 0, crc := Crc32.padded [] } 0xFFFF0000 none,
          pocketShipment.request] { size := 0, crc := Crc32.padded [] }
      ∧ (oddLayout.Usable oddGeometry
        ∧ (leftAlone ({} : Device oddGeometry) oddLayout [] 0).Misses
          longerShipment.datagrams longerShipment.manifest)
      ∧ smallLayout.Usable smallGeometry
        ∧ (leftAlone { flash := ({} : Flash smallGeometry).preload 48 [0x00] } smallLayout []
          0).Misses pocketShipment.datagrams pocketShipment.manifest := by
  refine ⟨?_, ?_, ?_, ?_, ⟨?_, ?_⟩, ?_, ?_⟩
  all_goals decide +kernel

end Watch

end Reflash
