/-
  Reflash.Proofs.Retransmission

  A datagram that is sent twice in a row, at an endpoint that any traffic may have left
  in the middle of another one. A datagram with another id makes room at once. One with
  the same id keeps its place, for its header is taken for the one that has come again;
  then the first transmission fills the slots that are empty, and if with them nothing
  is missing what was under way is gone, and the second transmission delivers. What
  lacks data behind the last packet of the datagram is never completed by it, and as
  long as it is under way nothing is delivered.
-/
import Reflash.Proofs.Intake
import Reflash.Proofs.Stream
import Reflash.Proofs.Transmission

namespace Reflash

namespace Assembly

/-! ## Frames, one after the other -/

/-- Takes frames one after the other. -/
def takeAll (assembly : Assembly) : List Bytes → List Receipt × Assembly
  | [] => ([], assembly)
  | frame :: frames =>
    let taken := assembly.take frame
    let rest := takeAll taken.2 frames
    (taken.1 :: rest.1, rest.2)

theorem takeAll_append (assembly : Assembly) (front back : List Bytes) :
    assembly.takeAll (front ++ back)
      = ((assembly.takeAll front).1 ++ ((assembly.takeAll front).2.takeAll back).1,
        ((assembly.takeAll front).2.takeAll back).2) := by
  induction front generalizing assembly with
  | nil => rfl
  | cons frame front ih => simp only [List.cons_append, takeAll, ih]

/-- Taking a frame says something of that frame. -/
theorem take_framed (assembly : Assembly) (frame : Bytes) : (assembly.take frame).1.Framed := by
  rw [take]
  cases Packet.ofFrame frame with
  | error fault => trivial
  | ok packet =>
    simp only
    split
    · trivial
    cases assembly.route? packet with
    | none => trivial
    | some result =>
      cases result with
      | error fault => trivial
      | ok next =>
        dsimp only
        split
        · trivial
        · cases next.verify <;> trivial

variable {whole part : Datagram} {assembly : Assembly}

theorem Takes.mem_takeAll {frames : List Bytes} {last : Assembly}
    (h : Takes whole assembly frames true last) :
    ∃ packet, .delivered packet whole ∈ (assembly.takeAll frames).1 := by
  generalize hdelivered : true = delivered at h
  induction h with
  | nil => cases hdelivered
  | absorbed take_eq absorbed rest ih =>
    obtain ⟨packet, hmem⟩ := ih hdelivered
    rw [takeAll, take_eq]
    exact ⟨packet, List.mem_cons_of_mem _ hmem⟩
  | @delivered _ _ packet _ _ take_eq rest ih =>
    rw [takeAll, take_eq]
    exact ⟨packet, List.mem_cons_self⟩

theorem frames_eq_cons (whole : Datagram) :
    whole.frames = (whole.packetAt 0).toFrame
      :: whole.framesAt ((List.range whole.header.packets.toNat).map Nat.succ) := by
  rw [Datagram.frames_eq, Datagram.packetCount, List.range_succ_eq_map]
  rfl

/-- With nothing of its id under way the frames of a datagram deliver it. -/
theorem takeAll_other (h : whole.Intact) (hother : assembly.holds whole.header.id = false) :
    ∃ packet, .delivered packet whole ∈ (assembly.takeAll whole.frames).1 := by
  have hroute := route?_header h.check_eq hother
  rcases Nat.eq_zero_or_pos whole.slots.length with hzero | hpos
  · -- There is no data: the header is all of it.
    rw [h.awaiting_eq hzero] at hroute
    have htake := take_packetAt_last h.crc_eq hroute (by rw [List.length_eq_zero_iff.1 hzero]; rfl)
    rw [frames_eq_cons, takeAll, htake]
    exact ⟨_, List.mem_cons_self⟩
  · -- The header starts the datagram, as it does with nothing under way.
    have hwhole := h.whole_of_pos hpos
    have htake := take_packetAt hroute (Datagram.awaiting_not_complete hwhole)
    obtain ⟨packet, hmem⟩ := (takes_all hwhole (.inl rfl)).mem_takeAll
    rw [frames_eq_cons, takeAll] at hmem ⊢
    rw [take_header_none hwhole] at hmem
    rw [htake]
    exact ⟨packet, hmem⟩

theorem Takes.takeAll_eq {frames : List Bytes} {delivered : Bool} {last : Assembly}
    (h : Takes whole assembly frames delivered last) : (assembly.takeAll frames).2 = last := by
  induction h with
  | nil => rfl
  | absorbed take_eq absorbed rest ih => rw [takeAll, take_eq, ih]
  | delivered take_eq rest ih => rw [takeAll, take_eq, ih]

/-! ## Another datagram of the same id -/

theorem incomplete_iff :
    isComplete (some part) = false ↔ ∃ j : Nat, part.slots[j]? = some none := by
  show part.slots.all Option.isSome = false ↔ _
  simp only [List.all_eq_false, Bool.not_eq_true, Option.isSome_eq_false_iff,
    Option.isNone_iff_eq_none, List.mem_iff_getElem?]
  constructor
  · rintro ⟨slot, ⟨j, hj⟩, rfl⟩
    exact ⟨j, hj⟩
  · rintro ⟨j, hj⟩
    exact ⟨none, ⟨j, hj⟩, rfl⟩

/-- A packet that completes what is under way leaves nothing, whether it was right or wrong. -/
theorem take_packetAt_complete {next : Assembly} {sequence : Nat}
    (hroute : assembly.route? (whole.packetAt sequence) = some (.ok next))
    (hcomplete : next.isComplete = true) :
    ∃ receipt, assembly.take (whole.packetAt sequence).toFrame = (receipt, none) := by
  rw [take, Datagram.ofFrame_packetAt]
  simp only [Datagram.payloadCrc_packetAt, ne_eq, not_true_eq_false, if_false, hroute, hcomplete,
    Bool.not_true, Bool.false_eq_true]
  cases next.verify with
  | error fault => exact ⟨_, rfl⟩
  | ok _ => exact ⟨_, rfl⟩

/-- What comes of data for slot `i` of the datagram under way: afterwards this slot is not empty,
and if there is no other empty slot nothing is under way any more. -/
inductive Strikes (part : Datagram) (i : Nat) : Receipt × Assembly → Prop
  | passed {receipt : Receipt} {next : Datagram} (passed : ¬receipt.Delivers)
      (header_eq : next.header = part.header)
      (empty_iff : ∀ j, next.slots[j]? = some none ↔ part.slots[j]? = some none ∧ j ≠ i)
      (incomplete : isComplete (some next) = false) : Strikes part i (receipt, some next)
  | finished {receipt : Receipt} (last : ∀ j, part.slots[j]? = some none → j = i) :
      Strikes part i (receipt, none)

/-- Data of a datagram strikes whatever has the same id. -/
theorem take_data_held (hid : part.header.id = whole.header.id)
    (hincomplete : isComplete (some part) = false) {i : Nat} (hi : i < 255) :
    Strikes part i (take (some part) (whole.packetAt (i + 1)).toFrame) := by
  have hroute := route?_data whole (some part) i
  rw [acceptData_dataPacket hid.symm hi] at hroute
  by_cases hslot : part.slots[i]? = some none
  · rw [hslot] at hroute
    have hin : i < part.slots.length := (List.getElem?_eq_some_iff.1 hslot).1
    generalize hnext : ({ part with
      slots := part.slots.set i (some ((whole.data.drop (i * 128)).take 128)) } : Datagram) = next
      at hroute
    have hempty : ∀ j, next.slots[j]? = some none ↔ part.slots[j]? = some none ∧ j ≠ i := by
      intro j
      rw [← hnext]
      by_cases heq : i = j
      · subst heq
        simp [hin]
      · simp [List.getElem?_set_ne heq, Ne.symm heq]
    cases hcomplete : isComplete (some next) with
    | false =>
      rw [take_packetAt hroute hcomplete]
      exact .passed id (by rw [← hnext]) hempty hcomplete
    | true =>
      obtain ⟨receipt, htake⟩ := take_packetAt_complete hroute hcomplete
      rw [htake]
      refine .finished fun j hj => Classical.byContradiction fun hne => ?_
      rw [incomplete_iff.2 ⟨j, (hempty j).2 ⟨hj, hne⟩⟩] at hcomplete
      cases hcomplete
  · -- The slot is filled already, or there is no such slot: nothing changes.
    rw [take_data_refused hid.symm hi hslot]
    refine .passed id rfl (fun j => ⟨fun hj => ⟨hj, ?_⟩, And.left⟩) hincomplete
    rintro rfl
    exact hslot hj

/-- Data for some slots of the datagram under way: if no other slot is empty nothing is under way
in the end, and else it lacks just the others and nothing has come of it. -/
theorem takeAll_data_held {order : List Nat} (hsmall : ∀ i ∈ order, i < 255)
    (hid : part.header.id = whole.header.id) (hincomplete : isComplete (some part) = false) :
    let taken := takeAll (some part) (whole.framesAt (order.map Nat.succ))
    ((∀ j, part.slots[j]? = some none → j ∈ order) → taken.2 = none)
      ∧ ((∃ j, part.slots[j]? = some none ∧ j ∉ order) →
        (∀ receipt ∈ taken.1, ¬receipt.Delivers)
        ∧ ∃ next : Datagram, taken.2 = some next ∧ next.header = part.header
          ∧ ∀ j, next.slots[j]? = some none ↔ part.slots[j]? = some none ∧ j ∉ order) := by
  induction order generalizing part with
  | nil =>
    obtain ⟨j, hj⟩ := incomplete_iff.1 hincomplete
    exact ⟨fun hall => absurd (hall j hj) List.not_mem_nil,
      fun _ => ⟨fun _ hmem => absurd hmem List.not_mem_nil, part, rfl, rfl, by simp⟩⟩
  | cons i order ih =>
    have hstrikes := take_data_held hid hincomplete (hsmall i List.mem_cons_self)
    have hsmall' := fun j hmem => hsmall j (List.mem_cons_of_mem i hmem)
    intro taken
    have htaken : taken = takeAll (some part) ((whole.packetAt (i + 1)).toFrame
        :: whole.framesAt (order.map Nat.succ)) := rfl
    rw [takeAll] at htaken
    rw [htaken]
    generalize take (some part) (whole.packetAt (i + 1)).toFrame = outcome at hstrikes
    cases hstrikes with
    | passed passed header_eq empty_iff incomplete =>
      obtain ⟨hdone, hlacking⟩ := ih hsmall' (by rw [header_eq]; exact hid) incomplete
      refine ⟨fun hall => hdone fun j hj => ?_, fun hother => ?_⟩
      · obtain ⟨hempty, hne⟩ := (empty_iff j).1 hj
        exact (List.mem_cons.1 (hall j hempty)).resolve_left hne
      · obtain ⟨j, hj, hout⟩ := hother
        rw [List.mem_cons, not_or] at hout
        obtain ⟨hquiet, next, hnext, hheader, hempty⟩ :=
          hlacking ⟨j, (empty_iff j).2 ⟨hj, hout.1⟩, hout.2⟩
        refine ⟨List.forall_mem_cons.2 ⟨passed, hquiet⟩, next, hnext, hheader.trans header_eq, ?_⟩
        intro j
        rw [hempty, empty_iff, List.mem_cons, not_or, and_assoc]
    | finished last =>
      refine ⟨fun _ => ?_, fun ⟨j, hj, hout⟩ => ?_⟩
      · exact (takes_data_none whole (by simp)).takeAll_eq
      · exact absurd (last j hj ▸ List.mem_cons_self) hout

/-- A datagram with the same id is under way, and lacks data that `whole` does not have. -/
def Obstructed (whole : Datagram) (assembly : Assembly) : Prop :=
  ∃ part : Datagram, assembly = some part ∧ part.header.id = whole.header.id
    ∧ ∃ j, part.slots[j]? = some none ∧ whole.slots.length ≤ j

theorem Obstructed.held (h : Obstructed whole assembly) :
    assembly.holds whole.header.id = true ∧ assembly.isComplete = false := by
  obtain ⟨part, rfl, hid, j, hj, -⟩ := h
  exact ⟨beq_iff_eq.2 hid, incomplete_iff.2 ⟨j, hj⟩⟩

/-- All frames of a datagram, while another one with its id is under way. -/
theorem takeAll_held (h : whole.Intact) (hheld : assembly.holds whole.header.id = true)
    (hincomplete : assembly.isComplete = false) :
    (¬Obstructed whole assembly → (assembly.takeAll whole.frames).2 = none)
      ∧ (Obstructed whole assembly →
        (∀ receipt ∈ (assembly.takeAll whole.frames).1, ¬receipt.Delivers)
        ∧ Obstructed whole (assembly.takeAll whole.frames).2) := by
  cases assembly with
  | none => cases hheld
  | some part =>
    have hid : part.header.id = whole.header.id := beq_iff_eq.1 hheld
    have hsmall : ∀ i ∈ List.range whole.header.packets.toNat, i < 255 := by
      intro i hmem
      rw [List.mem_range, h.packets_eq] at hmem
      have hroom := (h.whole_of_pos (by omega)).room
      have hmax : Datagram.maxDataPackets = 16 := rfl
      omega
    have hmem : ∀ j, j ∉ List.range whole.header.packets.toNat ↔ whole.slots.length ≤ j := by
      intro j
      rw [List.mem_range, h.packets_eq, Nat.not_lt]
    -- The header is taken for the one that has come again.
    have hheader := take_packetAt (route?_header_held hheld) hincomplete
    obtain ⟨hdone, hlacking⟩ := takeAll_data_held hsmall hid hincomplete
    rw [frames_eq_cons, takeAll, hheader]
    refine ⟨fun hclear => hdone fun j hj => ?_, fun hobstructed => ?_⟩
    · refine Classical.byContradiction fun hout => hclear ⟨part, rfl, hid, j, hj, ?_⟩
      exact (hmem j).1 hout
    · obtain ⟨_, ⟨⟩, -, j, hj, hbehind⟩ := hobstructed
      obtain ⟨hquiet, next, hnext, hnextHeader, hempty⟩ := hlacking ⟨j, hj, (hmem j).2 hbehind⟩
      exact ⟨List.forall_mem_cons.2 ⟨id, hquiet⟩, next, hnext, by rw [hnextHeader, hid], j,
        (hempty j).2 ⟨hj, (hmem j).2 hbehind⟩, hbehind⟩

/-- Two transmissions deliver the datagram, unless what is under way obstructs them; then nothing is
delivered. -/
theorem takeAll_twice (h : whole.Intact) (hincomplete : assembly.isComplete = false) :
    (¬Obstructed whole assembly →
      ∃ packet, .delivered packet whole ∈ (assembly.takeAll (whole.frames ++ whole.frames)).1)
    ∧ (Obstructed whole assembly →
      ∀ receipt ∈ (assembly.takeAll (whole.frames ++ whole.frames)).1, ¬receipt.Delivers) := by
  rw [takeAll_append]
  constructor
  · intro hclear
    cases hheld : assembly.holds whole.header.id with
    | false =>
      -- The first transmission delivers already.
      obtain ⟨packet, hmem⟩ := takeAll_other h hheld
      exact ⟨packet, List.mem_append_left _ hmem⟩
    | true =>
      have hdone := (takeAll_held h hheld hincomplete).1 hclear
      obtain ⟨packet, hmem⟩ := takeAll_other h (show holds none whole.header.id = false from rfl)
      refine ⟨packet, List.mem_append_right _ ?_⟩
      rw [hdone]
      exact hmem
  · intro hobstructed
    obtain ⟨hheld, -⟩ := hobstructed.held
    obtain ⟨hfirst, hstill⟩ := (takeAll_held h hheld hincomplete).2 hobstructed
    obtain ⟨hheld', hincomplete'⟩ := hstill.held
    obtain ⟨hsecond, -⟩ := (takeAll_held h hheld' hincomplete').2 hstill
    exact List.forall_mem_append.2 ⟨hfirst, hsecond⟩

end Assembly

/-! ## From the link -/

namespace Endpoint

variable {τ : Type} [Transport τ] {pending : τ → Bytes} {endpoint : Endpoint τ}

/-- An endpoint that any traffic has led to: bytes came in or got lost, the link failed, datagrams
were sent. -/
inductive Reached : Endpoint τ → Prop
  | fresh (link : τ) : Reached { link }
  | arrival {endpoint : Endpoint τ} (before : Reached endpoint) (link : τ) :
      Reached { endpoint with link }
  | received {endpoint : Endpoint τ} (before : Reached endpoint) : Reached endpoint.receive.2
  | sent {endpoint : Endpoint τ} (before : Reached endpoint) (datagram : Datagram) :
      Reached (endpoint.send datagram).2

theorem Reached.incomplete (h : Reached endpoint) : endpoint.assembly.isComplete = false := by
  induction h with
  | fresh link => rfl
  | arrival before link ih => exact ih
  | received before ih => exact (receive_advances _).incomplete ih
  | sent before datagram ih => rw [assembly_send]; exact ih

/-- Links one after the other, each received from until it has nothing more to give. -/
def receiveEach (limit : Nat) : List τ → Endpoint τ → List Receipt × Endpoint τ
  | [], endpoint => ([], endpoint)
  | link :: links, endpoint =>
    let first := { endpoint with link }.receiveAll limit
    let rest := receiveEach limit links first.2
    (first.1 ++ rest.1, rest.2)

/-- Frames on a link are taken one after the other, and then the link is silent. -/
theorem receiveAll_frames (hlink : Transport.Faithful pending) {packets : List Packet}
    (hpending : pending endpoint.link = (packets.map Packet.toFrame).flatten) {limit : Nat}
    (hlimit : packets.length < limit) :
    (endpoint.receiveAll limit).1
        = (endpoint.assembly.takeAll (packets.map Packet.toFrame)).1 ++ [.silence]
      ∧ (endpoint.receiveAll limit).2.assembly
        = (endpoint.assembly.takeAll (packets.map Packet.toFrame)).2 := by
  obtain ⟨more, rfl⟩ := Nat.exists_eq_succ_of_ne_zero (Nat.ne_of_gt (Nat.zero_lt_of_lt hlimit))
  induction packets generalizing endpoint more with
  | nil =>
    obtain ⟨hsilence, hassembly, -⟩ :=
      receive_noise hlink (show Packet.startMarker ∉ pending endpoint.link by simp [hpending])
    rw [receiveAll]
    simp only [hsilence]
    exact ⟨rfl, hassembly⟩
  | cons packet packets ih =>
    obtain ⟨body, hframe⟩ : ∃ body, packet.toFrame = Packet.startMarker :: body := ⟨_, rfl⟩
    have hlength : body.length + 1 = Packet.frameSize := by
      rw [← packet.length_toFrame, hframe, List.length_cons]
    have hfront : pending endpoint.link
        = [] ++ Packet.startMarker :: body ++ (packets.map Packet.toFrame).flatten := by
      rw [hpending, List.map_cons, List.flatten_cons, hframe]
      rfl
    obtain ⟨hreceipt, hassembly, hrest⟩ :=
      receive_block hlink List.not_mem_nil hlength hfront
    rw [← hframe] at hreceipt hassembly
    have hframed : endpoint.receive.1.Framed := hreceipt ▸ Assembly.take_framed _ _
    rw [List.length_cons] at hlimit
    obtain ⟨limit, rfl⟩ := Nat.exists_eq_succ_of_ne_zero (show more ≠ 0 by omega)
    obtain ⟨hreceipts, hlast⟩ := ih hrest limit (by omega)
    rw [hassembly] at hreceipts hlast
    rw [receiveAll_succ hframed, hreceipt, hreceipts]
    exact ⟨rfl, hlast⟩

variable {batches : List (List Packet)} {links : List τ} {limit : Nat}

/-- Over several links the frames are taken as if they had come over one. -/
theorem mem_receiveEach (hlink : Transport.Faithful pending) (endpoint : Endpoint τ)
    (hlinks : links.map pending = batches.map fun batch => (batch.map Packet.toFrame).flatten)
    (hlimit : ∀ batch ∈ batches, batch.length < limit) (receipt : Receipt) :
    (receipt ∈ (endpoint.assembly.takeAll (batches.flatten.map Packet.toFrame)).1 →
      receipt ∈ (endpoint.receiveEach limit links).1)
    ∧ (receipt ∈ (endpoint.receiveEach limit links).1 → receipt = .silence
      ∨ receipt ∈ (endpoint.assembly.takeAll (batches.flatten.map Packet.toFrame)).1) := by
  induction batches generalizing links endpoint with
  | nil =>
    obtain rfl : links = [] := List.map_eq_nil_iff.1 hlinks
    exact ⟨nofun, nofun⟩
  | cons batch batches ih =>
    cases links with
    | nil => cases hlinks
    | cons link links =>
      obtain ⟨hpending, hlinks⟩ := List.cons.inj hlinks
      obtain ⟨hbatch, hbatches⟩ := List.forall_mem_cons.1 hlimit
      have hfirst : pending ({ endpoint with link } : Endpoint τ).link
          = (batch.map Packet.toFrame).flatten := hpending
      obtain ⟨hreceipts, hassembly⟩ := receiveAll_frames hlink hfirst hbatch
      obtain ⟨hheard, htold⟩ := ih ({ endpoint with link }.receiveAll limit).2 hlinks hbatches
      rw [hassembly] at hheard htold
      rw [receiveEach, List.flatten_cons, List.map_append, Assembly.takeAll_append]
      simp only [hreceipts, List.mem_append, List.mem_singleton]
      constructor
      · rintro (hfront | hback)
        · exact .inl (.inl hfront)
        · exact .inr (hheard hback)
      · rintro ((hfront | hsilence) | hback)
        · exact .inr (.inl hfront)
        · exact .inl hsilence
        · exact (htold hback).imp_right .inr

/-- The frames of two transmissions of a datagram, however they are spread over links. -/
theorem receiveEach_twice (hlink : Transport.Faithful pending) (hreached : endpoint.Reached)
    {whole : Datagram} (hintact : whole.Intact)
    (hbatches : batches.flatten = whole.packets ++ whole.packets)
    (hlinks : links.map pending = batches.map fun batch => (batch.map Packet.toFrame).flatten)
    (hlimit : 2 * whole.packetCount < limit) :
    (¬Assembly.Obstructed whole endpoint.assembly →
        ∃ packet, .delivered packet whole ∈ (endpoint.receiveEach limit links).1)
      ∧ (Assembly.Obstructed whole endpoint.assembly →
        ∀ receipt ∈ (endpoint.receiveEach limit links).1, ¬receipt.Delivers) := by
  have hmost : ∀ batch ∈ batches, batch.length < limit := by
    intro batch hmem
    have hsub := (List.sublist_flatten_of_mem hmem).length_le
    have hcount : whole.packets.length = whole.packetCount := by
      rw [Datagram.packets, List.length_map, List.length_range]
    rw [hbatches, List.length_append, hcount] at hsub
    omega
  have hframes : batches.flatten.map Packet.toFrame = whole.frames ++ whole.frames := by
    rw [hbatches, List.map_append]
    rfl
  have hmem := mem_receiveEach hlink endpoint hlinks hmost
  rw [hframes] at hmem
  obtain ⟨hclear, hobstructed⟩ := Assembly.takeAll_twice hintact hreached.incomplete
  refine ⟨fun h => ?_, fun h receipt hreceipt => ?_⟩
  · obtain ⟨packet, hdelivered⟩ := hclear h
    exact ⟨packet, (hmem _).1 hdelivered⟩
  · rcases (hmem receipt).2 hreceipt with rfl | htaken
    · exact id
    · exact hobstructed h receipt htaken

/-- A datagram that is sent again comes through. However the frames of two transmissions of a
datagram are spread over links that are received from one after the other, an endpoint that any
traffic has led to delivers the datagram, unless another datagram of the same id is under way that
lacks data behind the last packet of this one; and then it delivers nothing. -/
theorem repetition_delivers (hlink : Transport.Faithful pending) (hreached : endpoint.Reached)
    (kind : Datagram.Kind) (id : UInt32) (target : Option UInt8) {data : Bytes}
    (hfits : data.length ≤ Datagram.maxSize) {whole : Datagram}
    (hwhole : whole = .pack kind id target data)
    (hbatches : batches.flatten = whole.packets ++ whole.packets)
    (hlinks : links.map pending = batches.map fun batch => (batch.map Packet.toFrame).flatten)
    (hlimit : 2 * whole.packetCount < limit) :
    whole.kind = kind ∧ whole.id = id ∧ whole.header.target = target ∧ whole.data = data
      ∧ (¬Assembly.Obstructed whole endpoint.assembly →
        ∃ packet, .delivered packet whole ∈ (endpoint.receiveEach limit links).1)
      ∧ (Assembly.Obstructed whole endpoint.assembly →
        ∀ receipt ∈ (endpoint.receiveEach limit links).1, ¬receipt.Delivers) := by
  have hintact : whole.Intact := hwhole ▸ Datagram.pack_intact kind id target hfits
  have hdata : whole.data = data := hwhole ▸ Datagram.data_pack kind id target hfits
  exact ⟨hwhole ▸ rfl, hwhole ▸ rfl, hwhole ▸ rfl, hdata,
    receiveEach_twice hlink hreached hintact hbatches hlinks hlimit⟩

/-! ## Two datagrams of one id -/

/-- Frames on a link. -/
def carrying (packets : List Packet) : Loopback where
  capacity := 0
  incoming := (packets.map Packet.toFrame).flatten

theorem map_carrying (batches : List (List Packet)) :
    (batches.map carrying).map (·.incoming)
      = batches.map fun batch => (batch.map Packet.toFrame).flatten := by
  rw [List.map_map]
  rfl

/-- An endpoint that has the header of a datagram, and nothing else of it. -/
def begun (datagram : Datagram) : Endpoint Loopback :=
  (Endpoint.receive { link := carrying [datagram.packetAt 0] }).2

theorem begun_reached (datagram : Datagram) : (begun datagram).Reached :=
  .received (.fresh _)

/-- What has only begun stands in the way of shorter datagrams of its id. -/
theorem begun_obstructed_iff {datagram whole : Datagram} (h : datagram.Whole) :
    Assembly.Obstructed whole (begun datagram).assembly
      ↔ datagram.header.id = whole.header.id ∧ whole.slots.length < datagram.slots.length := by
  have hbegun : (begun datagram).assembly = some (.awaiting datagram.header) := by
    obtain ⟨stats, hreceive⟩ := receive_toFrame
      (show ({ link := carrying [datagram.packetAt 0] } : Endpoint Loopback).link.incoming
        = (datagram.packetAt 0).toFrame ++ [] from rfl)
    rw [begun, hreceive, Assembly.take_header_none h]
  have hempty : ∀ j, (Datagram.awaiting datagram.header).slots[j]? = some none
      ↔ j < datagram.slots.length := by
    intro j
    show (List.replicate datagram.header.packets.toNat none)[j]? = some none ↔ _
    simp [List.getElem?_replicate, h.packets_eq]
  rw [hbegun]
  constructor
  · rintro ⟨_, ⟨⟩, hid, j, hj, hbehind⟩
    have hlt := (hempty j).1 hj
    exact ⟨hid, by omega⟩
  · rintro ⟨hid, hlt⟩
    exact ⟨_, rfl, hid, _, (hempty _).2 hlt, Nat.le_refl _⟩

def longer : Datagram := .pack .firmwareChunk 7 none (List.replicate 300 0x01)

def shorter : Datagram := .pack .firmwareChunk 7 none [0x02, 0x03]

/-- The longer one takes the place of the shorter. -/
theorem repetition_delivers_longer :
    ∃ packet, .delivered packet longer ∈ ((begun shorter).receiveEach 9
      ([longer.packets, longer.packets].map carrying)).1 := by
  have hwhole : shorter.Whole := Datagram.pack_whole _ _ _ (by decide) (by decide)
  have hfits : (List.replicate 300 (0x01 : UInt8)).length ≤ Datagram.maxSize := by
    rw [List.length_replicate]
    decide
  have hlonger : longer = .pack .firmwareChunk 7 none (List.replicate 300 0x01) := by rw [longer]
  obtain ⟨-, -, -, -, hdelivers, -⟩ := repetition_delivers Transport.loopback_faithful
    (begun_reached shorter) .firmwareChunk 7 none hfits hlonger
    (show [longer.packets, longer.packets].flatten = longer.packets ++ longer.packets by simp)
    (map_carrying _) (show 2 * longer.packetCount < 9 by decide +kernel)
  refine hdelivers fun hobstructed => ?_
  exact absurd ((begun_obstructed_iff hwhole).1 hobstructed).2 (by decide +kernel)

/-- The shorter one does not take the place of the longer, however often it is sent. -/
theorem repetition_obstructed :
    (begun longer).Reached ∧ shorter.data.length ≤ Datagram.maxSize
      ∧ ∀ packet, .delivered packet shorter ∉ ((begun longer).receiveEach 5
        ([shorter.packets, shorter.packets].map carrying)).1 := by
  have hwhole : longer.Whole :=
    Datagram.pack_whole _ _ _ (by rw [List.length_replicate]; decide)
      (by rw [List.length_replicate]; decide)
  have hintact : shorter.Intact := Datagram.pack_intact _ _ _ (by decide)
  refine ⟨begun_reached longer, by decide +kernel, fun packet hmem => ?_⟩
  obtain ⟨-, hnothing⟩ := receiveEach_twice Transport.loopback_faithful (begun_reached longer)
    hintact
    (show [shorter.packets, shorter.packets].flatten = shorter.packets ++ shorter.packets by simp)
    (map_carrying _) (show 2 * shorter.packetCount < 5 by decide)
  have hobstructed := (begun_obstructed_iff hwhole).2
    (show longer.header.id = shorter.header.id ∧ _ from ⟨rfl, by decide +kernel⟩)
  exact hnothing hobstructed _ hmem trivial

end Endpoint

end Reflash
