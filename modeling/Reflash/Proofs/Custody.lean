/-
  Reflash.Proofs.Custody

  What a session takes for accepted is in the node's custody. Frames may be lost on
  their way out and on their way back, flash may fail at any request, and time may
  pass: the node holds every chunk that the session has moved past, unless it has
  given up the image for a failed write and the session was not told. Then the node
  refuses what comes as out of turn, and the session takes that for the refusal of
  another copy.
-/
import Reflash.Proofs.Install.Receiving
import Reflash.Proofs.Recovery

namespace Reflash

/-! ## Faults of the flash part -/

/-- Whatever goes wrong in a task goes wrong in the flash part. -/
def FlashTask.Physical {α : Type} (task : FlashTask α) : Prop :=
  task.run.Asks (fun _ => True) fun outcome =>
    ∀ fault, outcome = .error fault → ∃ cause, fault = .flash cause

namespace FlashTask

variable {α β : Type}

theorem physical_pure (a : α) : (pure a : FlashTask α).Physical := nofun

theorem Physical.bind {task : FlashTask α} {next : α → FlashTask β} (h : task.Physical)
    (hnext : ∀ a, (next a).Physical) : (task >>= next).Physical := by
  refine Procedure.Asks.bind h ?_
  intro outcome hfault
  cases outcome with
  | ok a => exact hnext a
  | error fault =>
    intro fault' heq
    cases heq
    exact hfault fault rfl

theorem toFault_flash (otherwise : FlashFault) (error : DriverError) :
    ∃ cause, error.toFault otherwise = .flash cause := by
  cases error with
  | notAligned => exact ⟨_, rfl⟩
  | outOfBounds => exact ⟨_, rfl⟩
  | other => exact ⟨_, rfl⟩

theorem mapError_flash {answer : Except DriverError α} {otherwise : FlashFault} {fault : Fault}
    (h : answer.mapError (DriverError.toFault otherwise) = .error fault) :
    ∃ cause, fault = .flash cause := by
  cases answer with
  | ok a => cases h
  | error error =>
    cases h
    exact toFault_flash otherwise error

theorem write_physical (offset : Nat) (bytes : Bytes) : (write offset bytes).Physical :=
  ⟨trivial, fun _ _ => mapError_flash⟩

theorem erase_physical (first last : Nat) : (erase first last).Physical :=
  ⟨trivial, fun _ _ => mapError_flash⟩

end FlashTask

/-- Of every procedure something can be said that says nothing. -/
theorem Procedure.asks_trivial {α : Type} (procedure : Procedure α) :
    procedure.Asks (fun _ => True) fun _ => True := by
  induction procedure with
  | done a => trivial
  | read offset length next ih => exact ⟨trivial, fun _ _ => ih _, fun _ => ih _⟩
  | write offset bytes next ih => exact ⟨trivial, fun _ => ih _⟩
  | erase first last next ih => exact ⟨trivial, fun _ => ih _⟩
  | jump target next ih => exact ⟨trivial, ih⟩

theorem Installer.writeChunk_physical (g : Geometry) (offset : Nat) (data : Bytes) :
    (writeChunk g offset data).Physical := by
  rw [writeChunk_eq]
  have hfront : (writeFront g offset data).Physical := by
    rw [writeFront]
    split
    · exact FlashTask.write_physical _ _
    · exact FlashTask.physical_pure _
  refine hfront.bind fun _ => ?_
  rw [writeTail]
  split
  · exact FlashTask.write_physical _ _
  · exact FlashTask.physical_pure _

/-! ## The image of a session, as far as it has been taken -/

namespace Session

variable {plan : Session}

/-- The first chunks of the image. -/
def front (plan : Session) (count : Nat) : List Bytes :=
  (plan.firmware.pieces plan.options.chunkSize).take count

/-- The stage of a node that has taken the first `taken` datagrams of the update of `plan`. -/
inductive Tracks (plan : Session) : Nat → Stage → Prop
  | waiting : Tracks plan 0 .idle
  | receiving {index : Nat} (more : index * plan.options.chunkSize < plan.firmware.length) :
      Tracks plan (index + 1)
        (.receiving plan.manifest (index * plan.options.chunkSize) index)
  | complete : Tracks plan (plan.chunkCount + 1) (.complete plan.manifest)
  | installed : Tracks plan (plan.chunkCount + 1) (.installed plan.manifest)

/-- What comes of datagram `k` at a node in `stage` that has taken the first `taken`: it has taken
this one too, now or before; or it refuses it, but not like another copy; or it gives up the
image. -/
inductive Responded (plan : Session) (k taken : Nat) (stage : Stage) :
    Except Fault Unit × Stage → Prop
  | taken {result : Except Fault Unit} {after : Stage} (tracks : plan.Tracks (k + 1) after)
      (gathered_eq : Installer.gathered (plan.front (taken - 1)) (plan.datagramAt k) result stage
        after = plan.front k) : Responded plan k taken stage (result, after)
  | refused {fault : Fault} (never : ¬RefusesCopy k fault) :
      Responded plan k taken stage (.error fault, stage)
  | abandoned {manifest : Manifest} {written chunks : Nat} {cause : FlashFault}
      (receiving : stage = .receiving manifest written chunks) :
      Responded plan k taken stage (.error (.flash cause), .idle)

theorem not_refusesCopy_flash (k : Nat) (cause : FlashFault) : ¬RefusesCopy k (.flash cause) := by
  rintro (h | ⟨-, h⟩) <;> cases h

/-- A flash fault never reads like the refusal of another copy. -/
theorem not_movesOn_flash (k : Nat) (cause : FlashFault) :
    ¬MovesOn k (.error (.flash cause)) := by
  rintro (himpossible | ⟨fault, hfault, hcopy⟩)
  · cases himpossible
  · cases hfault
    exact not_refusesCopy_flash k cause hcopy

theorem length_chunk (plan : Session) (index : Nat) : (plan.chunk index).length
    = min plan.options.chunkSize (plan.firmware.length - index * plan.options.chunkSize) := by
  rw [chunk, List.length_take, List.length_drop]

theorem front_succ (h : plan.Feasible) {index : Nat} (hindex : index < plan.chunkCount) :
    plan.front (index + 1) = plan.front index ++ [plan.chunk index] := by
  rw [← length_pieces_firmware h] at hindex
  rw [front, List.take_add_one, Bytes.getElem?_pieces _ hindex]
  rfl

variable {g : Geometry} {layout : Layout} {taken : Nat} {stage : Stage}

/-- Another copy of the datagram taken last changes nothing. -/
theorem responded_copy (h : plan.Feasible) {k : Nat} (hk : k ≤ plan.chunkCount)
    (htracks : plan.Tracks (k + 1) stage) :
    (Installer.respond g layout stage (plan.datagramAt k)).Asks (fun _ => True)
      (plan.Responded k (k + 1) stage) := by
  obtain ⟨fault, hrespond⟩ : ∃ fault,
      Installer.respond g layout stage (plan.datagramAt k) = pure (.error fault, stage) := by
    cases htracks with
    | receiving more =>
      obtain ⟨fault, -, hrespond⟩ := respond_copy_receiving h hk plan.manifest _
      exact ⟨fault, hrespond⟩
    | complete => exact ⟨_, respond_copy_finished h (.inl rfl)⟩
    | installed => exact ⟨_, respond_copy_finished h (.inr rfl)⟩
  rw [hrespond]
  exact .taken htracks (Installer.gathered_same _ _ _ _)

/-- The announcement is taken, or refused for its size, or its erasure fails and nothing has
happened. -/
theorem responded_manifest (h : plan.Feasible) :
    (Installer.respond g layout .idle (plan.datagramAt 0)).Asks (fun _ => True)
      (plan.Responded 0 0 .idle) := by
  have hfirst : plan.Tracks (0 + 1) (.receiving plan.manifest (0 * plan.options.chunkSize) 0) :=
    .receiving (by rw [Nat.zero_mul]; exact h.pos)
  rw [Nat.zero_mul] at hfirst
  obtain ⟨hkind, hdecode⟩ := plan.manifestDatagram_announces
  show (Installer.acceptManifest g layout plan.manifestDatagram.data).Asks _ _
  rw [Installer.acceptManifest, hdecode]
  show Procedure.Asks _ _ (if plan.manifest.size = 0
    ∨ plan.manifest.size.toNat > layout.regionSize then _ else _)
  split
  · -- The image does not fit into the region.
    exact .refused (by rintro (h | ⟨-, h⟩) <;> cases h)
  · refine Procedure.Asks.bind (FlashTask.erase_physical _ _) ?_
    intro outcome hfault
    cases outcome with
    | ok _ => exact .taken hfirst (Installer.gathered_announcement hkind _ _)
    | error fault =>
      obtain ⟨cause, rfl⟩ := hfault fault rfl
      exact .refused (not_refusesCopy_flash 0 cause)

theorem not_refusesCopy_refuseChunk {manifest : Manifest} {written chunks k : Nat}
    {datagram : Datagram} {fault : Fault} (hid : datagram.id.toNat = chunks)
    (hrefuse : Installer.refuseChunk g manifest written chunks datagram = some fault) :
    ¬RefusesCopy k fault := by
  simp only [Installer.refuseChunk] at hrefuse
  rw [if_neg (not_not_intro hid)] at hrefuse
  split at hrefuse
  · cases hrefuse
    rintro (h | ⟨-, h⟩) <;> cases h
  · split at hrefuse
    · cases hrefuse
      rintro (h | ⟨-, h⟩) <;> cases h
    · split at hrefuse
      · cases hrefuse
        rintro (h | ⟨-, h⟩) <;> cases h
      · cases hrefuse

/-- A chunk with which the image is not complete is not the last. -/
theorem tracks_more {index : Nat}
    (hroom : index * plan.options.chunkSize + (plan.chunk index).length ≤ plan.firmware.length)
    (hmore : index * plan.options.chunkSize + (plan.chunk index).length ≠ plan.firmware.length) :
    plan.Tracks (index + 1 + 1) (.receiving plan.manifest
      (index * plan.options.chunkSize + (plan.chunk index).length) (index + 1)) := by
  have hwhole : index * plan.options.chunkSize + (plan.chunk index).length
      = (index + 1) * plan.options.chunkSize := by
    rw [length_chunk] at hroom hmore ⊢
    rw [Nat.succ_mul]
    omega
  rw [hwhole] at hroom hmore ⊢
  exact .receiving (by omega)

/-- A chunk with which the image is complete is the last. -/
theorem chunkCount_eq_of_last (h : plan.Feasible) {index : Nat} (hindex : index < plan.chunkCount)
    (hlast : index * plan.options.chunkSize + (plan.chunk index).length = plan.firmware.length) :
    plan.chunkCount = index + 1 := by
  have hsize := h.valid.1
  have hmost : plan.chunkCount < index + 1 + 1 := by
    rw [length_chunk] at hlast
    rw [chunkCount, Nat.div_lt_iff_lt_mul hsize, Nat.succ_mul, Nat.succ_mul]
    omega
  omega

/-- A chunk whose turn it is is taken, or refused for its length, or the image is given up. -/
theorem responded_turn (h : plan.Feasible) {index : Nat} (hindex : index < plan.chunkCount) :
    (Installer.respond g layout
      (.receiving plan.manifest (index * plan.options.chunkSize) index)
      (plan.datagramAt (index + 1))).Asks (fun _ => True)
      (plan.Responded (index + 1) (index + 1)
        (.receiving plan.manifest (index * plan.options.chunkSize) index)) := by
  have hid := id_chunkDatagram h hindex
  have hdata := data_chunkDatagram h index
  have hsize := (manifest_describes h).1
  have hwritten : index * plan.options.chunkSize ≤ plan.manifest.size.toNat := by
    rw [hsize]
    rw [chunkCount, Nat.lt_div_iff_mul_lt h.valid.1] at hindex
    omega
  rw [datagramAt_chunk hindex]
  show (Installer.acceptChunk g layout _ _ _ _).Asks _ _
  rw [Installer.acceptChunk]
  cases hrefuse : Installer.refuseChunk g plan.manifest (index * plan.options.chunkSize) index
      (plan.chunkDatagram index) with
  | some fault => exact .refused (not_refusesCopy_refuseChunk hid hrefuse)
  | none =>
    have hkind : (plan.datagramAt (index + 1)).kind = .firmwareChunk := by
      rw [datagramAt_chunk hindex]
      rfl
    have hgathered : plan.front (index + 1)
        = plan.front index ++ [(plan.datagramAt (index + 1)).data] := by
      rw [front_succ h hindex, datagramAt_chunk hindex, hdata]
    refine Procedure.Asks.bind (Installer.writeChunk_physical _ _ _) ?_
    intro outcome hfault
    cases outcome with
    | error fault =>
      -- Nothing of the image is kept after a failed write.
      obtain ⟨cause, rfl⟩ := hfault fault rfl
      exact .abandoned rfl
    | ok _ =>
      obtain ⟨-, -, hroom, -⟩ := (Installer.refuseChunk_eq_none_iff hwritten).1 hrefuse
      rw [hdata, hsize] at hroom
      show Procedure.Asks _ _ (if index * plan.options.chunkSize
        + (plan.chunkDatagram index).data.length ≠ plan.manifest.size.toNat then _ else _)
      rw [hdata, hsize]
      split
      · next hmore =>
        refine .taken (tracks_more hroom hmore) ?_
        rw [Installer.gathered_chunk hkind]
        exact hgathered.symm
      · next hlast =>
        have hcount := chunkCount_eq_of_last h hindex (Decidable.not_not.1 hlast)
        -- The last chunk is taken before the installation, which may fail without taking it back.
        refine Procedure.Asks.bind (Procedure.asks_trivial _) ?_
        intro outcome _
        cases outcome with
        | ok _ =>
          refine .taken (hcount ▸ .installed) ?_
          rw [Installer.gathered_chunk hkind]
          exact hgathered.symm
        | error fault =>
          refine .taken (hcount ▸ .complete) ?_
          rw [Installer.gathered_last hkind]
          exact hgathered.symm

/-- Whatever a node is sent in an update, it takes in order. -/
theorem responded (h : plan.Feasible) {k : Nat} (hk : k ≤ plan.chunkCount)
    (htracks : plan.Tracks taken stage) (htaken : taken = k ∨ taken = k + 1) :
    (Installer.respond g layout stage (plan.datagramAt k)).Asks (fun _ => True)
      (plan.Responded k taken stage) := by
  rcases htaken with rfl | rfl
  · cases htracks with
    | waiting => exact responded_manifest h
    | receiving more => exact responded_turn h hk
    | complete => exact absurd hk (Nat.not_succ_le_self _)
    | installed => exact absurd hk (Nat.not_succ_le_self _)
  · exact responded_copy h hk htracks

/-! ## What a session relies on -/

/-- A node in `stage` has accepted the first `count` chunks of the image, and still has them. -/
inductive Held (plan : Session) (count : Nat) : Stage → Prop
  | nothing (count_eq : count = 0) : Held plan count .idle
  | receiving {written chunks : Nat} (covered : count ≤ chunks)
      (written_eq : written = chunks * plan.options.chunkSize) :
      Held plan count (.receiving plan.manifest written chunks)
  | complete : Held plan count (.complete plan.manifest)
  | installed : Held plan count (.installed plan.manifest)

theorem Tracks.held (h : plan.Tracks taken stage) {count : Nat} (hcount : count ≤ taken - 1) :
    plan.Held count stage := by
  cases h with
  | waiting => exact .nothing (Nat.le_zero.1 hcount)
  | receiving more => exact .receiving hcount rfl
  | complete => exact .complete
  | installed => exact .installed

/-- A node that has taken all chunks has the whole image. -/
theorem Tracks.whole (h : plan.Tracks taken stage) (hfeasible : plan.Feasible)
    (hall : plan.chunkCount < taken) :
    stage = .complete plan.manifest ∨ stage = .installed plan.manifest := by
  cases h with
  | waiting => exact absurd hall (Nat.not_lt_zero _)
  | @receiving index more =>
    have hsize := hfeasible.valid.1
    rw [chunkCount, Nat.div_lt_iff_lt_mul hsize, Nat.succ_mul] at hall
    omega
  | complete => exact .inl rfl
  | installed => exact .inr rfl

theorem flatten_front (h : plan.Feasible) (count : Nat) :
    (plan.front count).flatten = plan.firmware.take (count * plan.options.chunkSize) :=
  Bytes.flatten_take_pieces h.valid.1 _ _

end Session

/-- What is staged of the image under way are its accepted chunks. -/
theorem Stage.Upright.slice_staging {g : Geometry} {layout : Layout} {chunks : List Bytes}
    {flash : Flash g} {stage : Stage} (h : stage.Upright layout chunks flash)
    (hunderway : stage ≠ .idle) :
    flash.slice layout.staging chunks.flatten.length = chunks.flatten := by
  cases stage with
  | idle => exact absurd rfl hunderway
  | receiving manifest written count =>
    rw [← h.written_eq]
    exact h.staged
  | complete manifest =>
    rw [← h.size_eq]
    exact h.staged
  | installed manifest =>
    rw [← h.size_eq]
    exact h.staged

/-! ## One exchange -/

namespace Exchange

variable {g : Geometry}

/-- Exchanges in which one ordeal after the other befalls the two, until the session ends. -/
def undergoAll (ordeals : List Ordeal) (exchange : Exchange g) :
    List (Ordeal × Exchange g) × Except SessionError (Exchange g) :=
  exchange.playOut Ordeal.disturbance Ordeal.now ordeals

theorem undergoAll_cons {exchange : Exchange g} (hended : ¬exchange.session.ended = true)
    (ordeal : Ordeal) (ordeals : List Ordeal) : exchange.undergoAll (ordeal :: ordeals)
      = match (exchange.undergo ordeal).after.conclude (exchange.undergo ordeal).returned with
        | .error error => ([(ordeal, exchange)], .error error)
        | .ok next => ((ordeal, exchange) :: (next.undergoAll ordeals).1,
          (next.undergoAll ordeals).2) := by
  rw [undergoAll, playOut, if_neg hended]
  rfl

/-- The node gives up the image that it was receiving, and the session goes on where it is. -/
def Abandons (exchange : Exchange g) (ordeal : Ordeal) : Prop :=
  ∃ layout manifest written chunks next,
    exchange.node.installer = .ready layout (.receiving manifest written chunks)
      ∧ (exchange.undergo ordeal).after.node.installer = .ready layout .idle
      ∧ (exchange.undergo ordeal).after.conclude (exchange.undergo ordeal).returned = .ok next
      ∧ next.session.stage = exchange.session.stage

/-- What the session makes of some frames of an answer, or of none. -/
theorem conclude_part {plan : Session} {k : Nat} (hk : k ≤ plan.chunkCount)
    (hpos : 0 < plan.chunkCount) {exchange next : Exchange g}
    (hawaits : plan.Awaits exchange.session k)
    (hanswering : exchange.session.endpoint.assembly.Answering) {handled : Bool}
    {result : Except Fault Unit} {order : List Nat} (hsorted : order.Pairwise (· < ·))
    (hbelow : ∀ n ∈ order, n ≤ 1)
    (hnext : exchange.conclude
      (bif handled then (((plan.datagramAt k).answer result).framesAt order).flatten else [])
        = .ok next) :
    next = { exchange with session := next.session }
      ∧ next.session.endpoint.assembly.Answering
      ∧ (plan.Awaits next.session k ∨ handled = true ∧ plan.Awaits next.session (k + 1)
        ∧ Session.MovesOn k result) := by
  rw [conclude] at hnext
  split at hnext
  · cases htimeOut : exchange.session.timeOut with
    | error error =>
      rw [htimeOut] at hnext
      cases hnext
    | ok session =>
      rw [htimeOut] at hnext
      cases hnext
      rw [hawaits.timeOut_eq hk] at htimeOut
      have hempty : plan.Awaits (exchange.session.withInbox []) k :=
        ⟨hawaits.firmware_eq, hawaits.options_eq, rfl, hawaits.stage_eq, hawaits.outgoing_eq⟩
      obtain ⟨hagain, hendpoint⟩ := hempty.retransmit htimeOut
      refine ⟨rfl, ?_, .inl hagain⟩
      rw [hendpoint]
      exact hanswering
  · next hne =>
    cases handled with
    | false => exact absurd rfl hne
    | true =>
      -- Frames came back, so the datagram has been answered.
      cases hfeed : exchange.session.feed
          (((plan.datagramAt k).answer result).framesAt order).flatten with
      | error error =>
        rw [cond_true, hfeed] at hnext
        cases hnext
      | ok session =>
        rw [cond_true, hfeed] at hnext
        cases hnext
        obtain ⟨hanswering', hsession⟩ :=
          hawaits.feed_part hk hpos hanswering hsorted hbelow hfeed
        exact ⟨rfl, hanswering', hsession.imp id fun h => ⟨rfl, h⟩⟩

end Exchange

namespace Pairing

variable {g : Geometry} {pairing : Pairing g}

/-- The node's flash part is made of pages that suit its layout, and loses no bits. -/
structure Sturdy (pairing : Pairing g) : Prop where
  paged : pairing.layout.Paged g
  usable : pairing.layout.Usable g
  glitch_eq : pairing.device.flash.glitch = none

/-- If its flash part can be relied on, the node has staged what it has taken of the image with the
first `taken` datagrams. -/
def Kept (pairing : Pairing g) (taken : Nat) (stage : Stage) (device : Device g) : Prop :=
  pairing.Sturdy → device.flash.glitch = none
    ∧ stage.Upright pairing.layout (pairing.session.front (taken - 1)) device.flash

section

variable {k taken : Nat} {stage : Stage} {device : Device g}

/-- Planning that requests fail changes nothing that flash holds. -/
theorem Kept.planning (h : pairing.Kept taken stage device) (faults : List PlannedFault) :
    pairing.Kept taken stage (device.planning faults) := by
  intro hsturdy
  obtain ⟨hglitch, hupright⟩ := h hsturdy
  have hsame : (device.planning faults).flash.memory = device.flash.memory
      ∧ (device.planning faults).flash.glitch = device.flash.glitch := by
    clear h hglitch hupright
    obtain ⟨flash, jumper⟩ := device
    simp only [Device.planning]
    induction faults generalizing flash with
    | nil => exact ⟨rfl, rfl⟩
    | cons planned faults ih => exact ih (flash.failAfter planned.operation planned.skip)
  exact ⟨hsame.2.trans hglitch, hupright.congr hsturdy.usable hsame.1⟩

/-- Trying to leave, if the node does, changes nothing that flash holds. -/
theorem Kept.left (h : pairing.Kept taken stage device) {after : Device g}
    (hafter : after = device
      ∨ after = (((Installer.ready pairing.layout stage).failSafeJump).run device).2) :
    pairing.Kept taken stage after := by
  rcases hafter with rfl | rfl
  · exact h
  · intro hsturdy
    obtain ⟨hglitch, hupright⟩ := h hsturdy
    exact ⟨Procedure.run_glitch _ hglitch, hupright.congr hsturdy.usable
      ((Installer.failSafeJump_asks hsturdy.paged stage).sameOutside device).2.memory_eq⟩

/-- What comes of a datagram at a node. -/
theorem Kept.respond (h : pairing.Kept taken stage device) (datagram : Datagram) :
    let response := (Installer.respond g pairing.layout stage datagram).run device
    pairing.Sturdy → response.2.flash.glitch = none
      ∧ response.1.2.Upright pairing.layout (Installer.gathered
        (pairing.session.front (taken - 1)) datagram response.1.1 stage response.1.2)
        response.2.flash := by
  intro response hsturdy
  obtain ⟨hglitch, hupright⟩ := h hsturdy
  exact ⟨Procedure.run_glitch _ hglitch,
    (Installer.respond_upright hsturdy.paged hsturdy.usable datagram hupright hglitch).2⟩

theorem Kept.slice_staging (h : pairing.Kept taken stage device) (hsturdy : pairing.Sturdy)
    (hfeasible : pairing.session.Feasible) (htracks : pairing.session.Tracks taken stage)
    {count : Nat} (hcount : count ≤ taken - 1) :
    let front := pairing.firmware.take (count * pairing.options.chunkSize)
    device.flash.slice pairing.layout.staging front.length = front := by
  intro front
  by_cases hidle : stage = .idle
  · rw [hidle] at htracks
    cases htracks
    have hnone : front = [] := by
      show pairing.firmware.take (count * _) = []
      rw [Nat.le_zero.1 hcount, Nat.zero_mul, List.take_zero]
    rw [hnone]
    exact Flash.slice_zero _ _
  · have hstaged := (h hsturdy).2.slice_staging hidle
    rw [Session.flatten_front hfeasible] at hstaged
    have hprefix : front <+: pairing.firmware.take ((taken - 1) * pairing.options.chunkSize) :=
      List.take_prefix_take_left (Nat.mul_le_mul_right _ hcount)
    calc device.flash.slice pairing.layout.staging front.length
      _ = (device.flash.slice pairing.layout.staging _).take front.length :=
        (Flash.slice_take _ _ hprefix.length_le).symm
      _ = (pairing.firmware.take ((taken - 1) * pairing.options.chunkSize)).take front.length :=
        congrArg (List.take front.length) hstaged
      _ = front := (List.prefix_iff_eq_take.1 hprefix).symm

end

/-- The node has taken the first `taken` datagrams of the update, holds what it has taken of the
image, and has nothing under way but a part of datagram `k`. -/
def Holding (pairing : Pairing g) (node : Node Loopback) (device : Device g) (k taken : Nat) :
    Prop :=
  ∃ assembly stage config,
    node.Holds ⟨pairing.room, [], []⟩ assembly (.ready pairing.layout stage) config
      ∧ assembly.Partial (pairing.session.datagramAt k)
      ∧ pairing.session.Tracks taken stage
      ∧ pairing.Kept taken stage device

/-- Between two exchanges the session is at datagram `k`. The node holds all that comes before it,
and perhaps this one too. -/
structure Custody (pairing : Pairing g) (exchange : Exchange g) (k : Nat) : Prop where
  awaits : pairing.session.Awaits exchange.session k
  answering : exchange.session.endpoint.assembly.Answering
  holding : ∃ taken, (taken = k ∨ taken = k + 1)
    ∧ pairing.Holding exchange.node exchange.device k taken

theorem custody_start (pairing : Pairing g) : pairing.Custody pairing.start 0 where
  awaits := (Session.stands_opened _ _ _).toAwaits
  answering := .inl rfl
  holding := ⟨0, .inl rfl, none, .idle, pairing.config, ⟨rfl, rfl, rfl, rfl⟩, .inl rfl, .waiting,
    fun hsturdy => ⟨hsturdy.glitch_eq, trivial⟩⟩

/-- What an exchange has done to the node, which has `handled` datagram `k` with this result or not:
it has given up the image, or goes on holding what it has taken of it. It says that it has taken
the datagram, or refuses it like another copy, only if it has taken it. -/
inductive Aftermath (pairing : Pairing g) (k : Nat) (handled : Bool) (result : Except Fault Unit)
    (before after : Node Loopback) (device : Device g) : Prop
  | abandoned {manifest : Manifest} {written chunks : Nat} {cause : FlashFault}
      (before_eq : before.installer = .ready pairing.layout (.receiving manifest written chunks))
      (after_eq : after.installer = .ready pairing.layout .idle)
      (result_eq : result = .error (.flash cause))
  | held {taken : Nat} (near : taken = k ∨ taken = k + 1)
      (holding : pairing.Holding after device k taken)
      (nothing_under_way : handled = true → after.endpoint.assembly = none)
      (honest : handled = true → Session.MovesOn k result → taken = k + 1)

/-- Whatever befalls an exchange, a node that holds what comes before datagram `k` takes it once, or
not at all, and of its answer some frames come back. -/
theorem Holding.undergo (hfeasible : pairing.session.Feasible)
    (hroom : ∀ k, (pairing.session.datagramAt k).packetCount * Packet.frameSize ≤ pairing.room)
    {exchange : Exchange g} {k taken : Nat} (hk : k ≤ pairing.session.chunkCount)
    (houtgoing : exchange.session.outgoing = (pairing.session.datagramAt k).frames.flatten)
    (h : pairing.Holding exchange.node exchange.device k taken)
    (htaken : taken = k ∨ taken = k + 1) (ordeal : Ordeal) :
    let report := exchange.undergo ordeal
    ∃ handled result order,
      report.after.session = { exchange.session with due := false }
      ∧ order.Pairwise (· < ·) ∧ (∀ n ∈ order, n ≤ 1)
      ∧ report.returned = (bif handled then
        (((pairing.session.datagramAt k).answer result).framesAt order).flatten else [])
      ∧ pairing.Aftermath k handled result exchange.node report.after.node
        report.after.device := by
  obtain ⟨assembly, stage, config, hnode, hpartial, htracks, hkept⟩ := h
  obtain ⟨handled, last, config', order, hsession, hnode', hlast, hnone, hdevice, hreturned,
    hsorted, hbelow⟩ := Exchange.undergo_ensures ordeal (Session.datagramAt_whole hfeasible k)
      houtgoing hnode hpartial (hroom k)
  have hplanned := hkept.planning ordeal.faults
  generalize exchange.device.planning ordeal.faults = device at *
  have hresponded : pairing.session.Responded k taken stage
      ((Installer.respond g pairing.layout stage (pairing.session.datagramAt k)).run device).1 :=
    ((Session.responded hfeasible hk htracks htaken).ensures device).2
  have hafter := hplanned.respond (pairing.session.datagramAt k)
  rw [Installer.process_run] at hnode' hdevice hreturned
  generalize (Installer.respond g pairing.layout stage (pairing.session.datagramAt k)).run device
    = response at *
  obtain ⟨⟨result, stage'⟩, device'⟩ := response
  dsimp only at hafter
  refine ⟨handled, result, order, hsession, hsorted, hbelow, hreturned, ?_⟩
  cases handled with
  | false =>
    -- Not all frames came through, or they are not for this node: it holds what it held.
    exact .held htaken ⟨last, stage, config', hnode', hlast, htracks, hplanned.left hdevice⟩
      nofun nofun
  | true =>
    cases hresponded with
    | taken tracks gathered_eq =>
      have hkept' : pairing.Kept (k + 1) stage' device' := by
        rw [gathered_eq] at hafter
        exact hafter
      refine .held (.inr rfl) ⟨last, stage', config', hnode', hlast, tracks,
        hkept'.left hdevice⟩ (fun _ => ?_) fun _ _ => rfl
      rw [hnode'.assembly_eq, hnone rfl]
    | @refused fault never =>
      have hkept' : pairing.Kept taken stage device' := by
        rw [Installer.gathered_same] at hafter
        exact hafter
      refine .held htaken ⟨last, stage, config', hnode', hlast, htracks,
        hkept'.left hdevice⟩ (fun _ => ?_) fun _ hrefuses => ?_
      · rw [hnode'.assembly_eq, hnone rfl]
      · rcases hrefuses with hok | ⟨_, heq, hcopy⟩
        · cases hok
        · cases heq
          exact absurd hcopy never
    | @abandoned manifest written chunks cause receiving =>
      have hbefore : exchange.node.installer
          = .ready pairing.layout (.receiving manifest written chunks) := by
        rw [hnode.installer_eq, receiving]
      exact .abandoned hbefore hnode'.installer_eq rfl

/-- With nothing under way, a node is ready for the next datagram. -/
theorem Holding.next {node : Node Loopback} {device : Device g} {k taken : Nat}
    (h : pairing.Holding node device k taken) (hnone : node.endpoint.assembly = none) :
    pairing.Holding node device (k + 1) taken := by
  obtain ⟨assembly, stage, config, hnode, -, htracks, hkept⟩ := h
  have hempty : assembly = none := hnode.assembly_eq.symm.trans hnone
  exact ⟨assembly, stage, config, hnode, .inl hempty, htracks, hkept⟩

/-- One exchange, whatever befalls it. -/
theorem Custody.step (hfeasible : pairing.session.Feasible)
    (hroom : ∀ k, (pairing.session.datagramAt k).packetCount * Packet.frameSize ≤ pairing.room)
    {exchange next : Exchange g} {k : Nat} (h : pairing.Custody exchange k)
    (hk : k ≤ pairing.session.chunkCount) (ordeal : Ordeal)
    (hnext : (exchange.undergo ordeal).after.conclude (exchange.undergo ordeal).returned
      = .ok next) :
    exchange.Abandons ordeal ∨ pairing.Custody next k ∨ pairing.Custody next (k + 1) := by
  obtain ⟨taken, htaken, hholding⟩ := h.holding
  obtain ⟨handled, result, order, hsession, hsorted, hbelow, hreturned, haftermath⟩ :=
    hholding.undergo hfeasible hroom hk h.awaits.outgoing_eq htaken ordeal
  have hawaits : pairing.session.Awaits (exchange.undergo ordeal).after.session k := by
    rw [hsession]
    exact ⟨h.awaits.firmware_eq, h.awaits.options_eq, h.awaits.inbox_eq, h.awaits.stage_eq,
      h.awaits.outgoing_eq⟩
  have hanswering : (exchange.undergo ordeal).after.session.endpoint.assembly.Answering := by
    rw [hsession]
    exact h.answering
  have hconclude := hnext
  rw [hreturned] at hconclude
  obtain ⟨heq, hanswering', hmoved⟩ := Exchange.conclude_part hk (Session.chunkCount_pos hfeasible)
    hawaits hanswering hsorted hbelow hconclude
  have hlands : next.node = (exchange.undergo ordeal).after.node
      ∧ next.device = (exchange.undergo ordeal).after.device := by
    rw [heq]
    exact ⟨rfl, rfl⟩
  rw [← hlands.1, ← hlands.2] at haftermath
  cases haftermath with
  | @abandoned _ _ _ cause before_eq after_eq result_eq =>
    rw [hlands.1] at after_eq
    rcases hmoved with hstays | ⟨-, -, hmoves⟩
    · exact .inl ⟨_, _, _, _, next, before_eq, after_eq, hnext,
        hstays.stage_eq.trans h.awaits.stage_eq.symm⟩
    · rw [result_eq] at hmoves
      exact absurd hmoves (Session.not_movesOn_flash k cause)
  | @held taken' near holding nothing_under_way honest =>
    rcases hmoved with hstays | ⟨hhandled, hmoves, hsays⟩
    · exact .inr (.inl ⟨hstays, hanswering', taken', near, holding⟩)
    · exact .inr (.inr ⟨hmoves, hanswering', taken', .inl (honest hhandled hsays),
        holding.next (nothing_under_way hhandled)⟩)

/-- All exchanges, whatever befalls them. -/
theorem Custody.undergoAll (hfeasible : pairing.session.Feasible)
    (hroom : ∀ k, (pairing.session.datagramAt k).packetCount * Packet.frameSize ≤ pairing.room)
    (ordeals : List Ordeal) {exchange last : Exchange g} {k : Nat} (h : pairing.Custody exchange k)
    (hk : k ≤ pairing.session.chunkCount + 1)
    (hlast : (exchange.undergoAll ordeals).2 = .ok last)
    (hnever : ∀ visit ∈ (exchange.undergoAll ordeals).1, ¬visit.2.Abandons visit.1) :
    ∃ k ≤ pairing.session.chunkCount + 1, pairing.Custody last k := by
  -- By induction on the ordeals: each exchange leaves the session where it is, or takes it one
  -- datagram further, and the custody holds there.
  induction ordeals generalizing exchange k with
  | nil =>
    cases hlast
    exact ⟨k, hk, h⟩
  | cons ordeal ordeals ih =>
    by_cases hended : exchange.session.ended = true
    · rw [Exchange.undergoAll, Exchange.playOut_ended _ _ hended] at hlast
      cases hlast
      exact ⟨k, hk, h⟩
    rw [Exchange.undergoAll_cons hended] at hlast hnever
    have hshort : k ≤ pairing.session.chunkCount :=
      Nat.le_of_lt_succ (Nat.lt_of_le_of_ne hk fun heq => hended ((h.awaits.ended_iff hk).2 heq))
    cases hnext : (exchange.undergo ordeal).after.conclude (exchange.undergo ordeal).returned with
    | error error =>
      rw [hnext] at hlast
      cases hlast
    | ok next =>
      rw [hnext] at hlast hnever
      obtain ⟨hfirst, hrest⟩ := List.forall_mem_cons.1 hnever
      rcases h.step hfeasible hroom hshort ordeal hnext with habandons | hstays | hmoves
      · exact absurd habandons hfirst
      · exact ih hstays hk hlast hrest
      · exact ih hmoves (Nat.succ_le_succ hshort) hlast hrest

/-! ## Custody -/

/-- The node has all chunks of the image that the session takes for accepted, and all of the image
once the session has ended. -/
structure Entrusted (pairing : Pairing g) (last : Exchange g) (stage : Stage) : Prop where
  installer_eq : last.node.installer = .ready pairing.layout stage
  held : pairing.session.Held last.session.progress.1 stage
  whole : last.session.ended = true →
    stage = .complete pairing.session.manifest ∨ stage = .installed pairing.session.manifest
  staged : pairing.Sturdy →
    let front := pairing.firmware.take (last.session.progress.1 * pairing.options.chunkSize)
    last.device.flash.slice pairing.layout.staging front.length = front

theorem Custody.entrusted (hfeasible : pairing.session.Feasible) {last : Exchange g} {k : Nat}
    (h : pairing.Custody last k) (hk : k ≤ pairing.session.chunkCount + 1) :
    ∃ stage, pairing.Entrusted last stage := by
  obtain ⟨taken, htaken, assembly, stage, config, hnode, -, htracks, hkept⟩ := h.holding
  have hcount : last.session.progress.1 ≤ taken - 1 := by
    rw [h.awaits.progress_eq hk]
    show k - 1 ≤ taken - 1
    omega
  refine ⟨stage, hnode.installer_eq, htracks.held hcount, fun hended => ?_,
    fun hsturdy => hkept.slice_staging hsturdy hfeasible htracks hcount⟩
  have hall := (h.awaits.ended_iff hk).1 hended
  exact htracks.whole hfeasible (by omega)

/-- A session takes for accepted only what is in the node's custody. The node's link has room for
one datagram, so that no frame is cut. Whatever frames are lost either way, whatever flash requests
fail and whatever time passes: unless the node gives up the image and the session does not hear of
it, the node has all chunks that the session has come past, and a session ends only when the node
has the whole image. -/
theorem custody_unless_abandoned
    (hvalid : pairing.options.Valid) (hpos : 0 < pairing.firmware.length)
    (hlt : pairing.firmware.length < 0x100000000)
    (hroom : (Datagram.packetsFor pairing.options.chunkSize + 1) * Packet.frameSize
      ≤ pairing.room) :
    (Session.new pairing.inbox pairing.firmware pairing.options >>= fun session =>
        session.feed []) = .ok pairing.session
      ∧ ∀ (ordeals : List Ordeal) (last : Exchange g),
        (pairing.start.undergoAll ordeals).2 = .ok last →
        (∀ visit ∈ (pairing.start.undergoAll ordeals).1, ¬visit.2.Abandons visit.1) →
        ∃ stage, pairing.Entrusted last stage := by
  have hfeasible : pairing.session.Feasible := ⟨hvalid, hpos, hlt⟩
  have hroom' : ∀ k, (pairing.session.datagramAt k).packetCount * Packet.frameSize
      ≤ pairing.room := fun k =>
    Nat.le_trans (Nat.mul_le_mul_right _ (Session.packetCount_datagramAt_le hfeasible k)) hroom
  refine ⟨Session.new_feed hvalid hpos hlt, ?_⟩
  intro ordeals last hlast hnever
  obtain ⟨k, hk, hcustody⟩ := (custody_start pairing).undergoAll hfeasible hroom' ordeals
    (Nat.zero_le _) hlast hnever
  exact hcustody.entrusted hfeasible hk

/-- A node on a small part, and a session that is to update it in two chunks. -/
def pocket : Pairing Pocket.geometry where
  firmware := [0x01, 0x02, 0x03, 0x04, 0x05, 0x06]
  options := { id := .ofBytes [0x01], chunkSize := 4 }
  inbox := 284
  layout := Pocket.layout
  room := 284

theorem pocket_sturdy : pocket.Sturdy :=
  ⟨Pocket.geometry_regular.paged Pocket.layout, Pocket.layout_usable, rfl⟩

/-- How many chunks a session has had accepted, whether it has ended, and the state of its node. -/
def ending (last : Exchange g) : Nat × Bool × Installer :=
  (last.session.progress.1, last.session.ended, last.node.installer)

theorem ending_eq {outcome : Except SessionError (Exchange g)} {expected : Nat × Bool × Installer}
    (h : outcome.toOption.map ending = some expected) :
    ∃ last, outcome = .ok last ∧ ending last = expected := by
  cases outcome with
  | error error => cases h
  | ok last => exact ⟨last, rfl, Option.some.inj h⟩

/-- The answer to the announcement is lost, then a frame of the first chunk. When the last chunk has
been accepted, nothing can be erased for the image, and of the answer only the header comes back. -/
def pocketOrdeals : List Ordeal :=
  [{ back := fun _ => false }, {}, { outward := (· != 0) }, {},
    { back := (· == 0), faults := [⟨.erase, 0⟩] }, {}, {}, {}, {}]

/-- The session is told at last that the node has taken the whole image, which is not installed. -/
theorem custody_unless_abandoned_pocket :
    ∃ last, (pocket.start.undergoAll pocketOrdeals).2 = .ok last
      ∧ last.session.ended = true
      ∧ last.node.installer = .ready Pocket.layout (.complete pocket.session.manifest)
      ∧ last.device.flash.slice 0 6 = [0x01, 0x02, 0x03, 0x04, 0x05, 0x06] := by
  have hend : (pocket.start.undergoAll pocketOrdeals).2.toOption.map ending
      = some (2, true, .ready Pocket.layout (.complete pocket.session.manifest)) := by
    decide +kernel
  have hnever : ∀ visit ∈ (pocket.start.undergoAll pocketOrdeals).1,
      (visit.2.undergo visit.1).after.node.installer.stateName ≠ "Idle" := by
    decide +kernel
  obtain ⟨last, hlast, heq⟩ := ending_eq hend
  obtain ⟨hprogress, hrest⟩ := Prod.ext_iff.1 heq
  obtain ⟨hended, hinstaller⟩ := Prod.ext_iff.1 hrest
  have hcustody :=
    (@custody_unless_abandoned _ pocket (by decide) (by decide) (by decide) (by decide)).2
  obtain ⟨stage, hentrusted⟩ := hcustody pocketOrdeals last hlast fun visit hmem habandons => by
    obtain ⟨layout, manifest, written, chunks, next, -, hidle, -⟩ := habandons
    refine hnever visit hmem ?_
    rw [hidle]
    rfl
  have hstaged := hentrusted.staged pocket_sturdy
  rw [show last.session.progress.1 = 2 from hprogress] at hstaged
  exact ⟨last, hlast, hended, hinstaller, hstaged⟩

/-- The last chunk cannot be written, and the answer that says so is lost. -/
def pocketLapse : List Ordeal :=
  [{}, {}, { back := fun _ => false, faults := [⟨.write, 0⟩] }, {}]

/-- Where custody ends. A node that has given up the image refuses what is sent again, and the
session takes that for the refusal of another copy: it ends although the node has nothing. -/
theorem abandoned_unnoticed :
    pocket.Sturdy ∧ ∃ last, (pocket.start.undergoAll pocketLapse).2 = .ok last
      ∧ last.session.ended = true
      ∧ last.node.installer = .ready Pocket.layout .idle
      ∧ ∀ stage, ¬pocket.Entrusted last stage := by
  have hend : (pocket.start.undergoAll pocketLapse).2.toOption.map ending
      = some (2, true, .ready Pocket.layout .idle) := by
    decide +kernel
  obtain ⟨last, hlast, heq⟩ := ending_eq hend
  obtain ⟨-, hrest⟩ := Prod.ext_iff.1 heq
  obtain ⟨hended, hinstaller⟩ := Prod.ext_iff.1 hrest
  refine ⟨pocket_sturdy, last, hlast, hended, hinstaller, fun stage hentrusted => ?_⟩
  have hstage := hinstaller.symm.trans hentrusted.installer_eq
  rcases hentrusted.whole hended with rfl | rfl <;> cases hstage

end Pairing

end Reflash
