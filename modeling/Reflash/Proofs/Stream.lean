/-
  Reflash.Proofs.Stream

  Reassembly from a noisy stream. Between the frames of a datagram there may be noise,
  damaged blocks and data of other datagrams; the frames themselves may come in any
  order and any number of times, and the link may give its bytes in pieces of any
  length. The datagram is delivered exactly with the frame that completes it: its
  header, and after the header every data packet. What is under way is described from
  the signals since the last delivery alone.
-/
import Reflash.Proofs.Link
import Reflash.Proofs.Reassembly

namespace Reflash

/-! ## Datagrams with or without data -/

namespace Datagram

/-- A datagram as it is made for sending; it may be empty. -/
structure Intact (whole : Datagram) : Prop where
  packets_eq : whole.header.packets.toNat = whole.slots.length
  check_eq : whole.header.check = .ok ()
  crc_eq : Crc32.padded whole.data = whole.header.crc
  whole_of_pos : 0 < whole.slots.length → whole.Whole

/-- An empty datagram is complete with its header. -/
theorem Intact.awaiting_eq {whole : Datagram} (h : whole.Intact) (hzero : whole.slots.length = 0) :
    awaiting whole.header = whole := by
  obtain ⟨header, slots⟩ := whole
  obtain rfl : slots = [] := List.length_eq_zero_iff.1 hzero
  have hpackets : header.packets.toNat = 0 := h.packets_eq
  rw [awaiting, hpackets, List.replicate_zero]

theorem pack_intact (kind : Kind) (id : UInt32) (target : Option UInt8) {data : Bytes}
    (hfits : data.length ≤ maxSize) : (pack kind id target data).Intact := by
  by_cases hpos : 0 < data.length
  · have h := pack_whole kind id target hpos hfits
    exact ⟨h.packets_eq, h.check_eq, h.crc_eq, fun _ => h⟩
  · obtain rfl : data = [] := List.length_eq_zero_iff.1 (by omega)
    have hslots : (pack kind id target []).slots = [] := by
      show ((Bytes.pieces 128 []).map some) = []
      rw [Bytes.pieces_nil, List.map_nil]
    refine ⟨?_, ?_, ?_, ?_⟩
    · rw [hslots]
      rfl
    · show (if (UInt32.ofNat 0).toNat > maxSize
          ∨ (UInt16.ofNat (packetsFor 0)).toNat > maxDataPackets then _
        else if (UInt16.ofNat (packetsFor 0)).toNat ≠ packetsFor (UInt32.ofNat 0).toNat then _
          else _) = _
      rw [if_neg (by decide), if_neg (by decide)]
    · rw [data_pack kind id target hfits]
      rfl
    · rw [hslots]
      nofun

end Datagram

/-! ## Signals -/

namespace Receipt

/-- A datagram was handed on. -/
def Delivers : Receipt → Prop
  | delivered _ _ => True
  | _ => False

/-- The link had a whole frame to give. -/
def Framed : Receipt → Prop
  | silence => False
  | cutShort _ => False
  | linkFailed _ => False
  | _ => True

end Receipt

/-- A block of the length of a frame, in a stream that carries a datagram. -/
inductive Signal where
  /-- A frame of the datagram; number zero is its header. -/
  | frame (sequence : Nat)
  /-- Any other block. -/
  | stray (block : Bytes)
  deriving DecidableEq

namespace Signal

def bytes (whole : Datagram) : Signal → Bytes
  | frame sequence => (whole.packetAt sequence).toFrame
  | stray block => block

/-- A block that begins like a frame and is of no use: it cannot be read, or its checksum is
wrong, or it is not to be reassembled, or it carries data of a datagram that is neither `whole` nor
the one under way at first. -/
structure Useless (whole : Datagram) (initial : Assembly) (block : Bytes) : Prop where
  length_eq : block.length = Packet.frameSize
  marked : block.head? = some Packet.startMarker
  useless : ∀ packet, Packet.ofFrame block = .ok packet → packet.payloadCrc = packet.crc →
    (packet.kind = .header → packet.sequence ≠ 0)
      ∧ (packet.kind = .data → packet.id ≠ whole.id ∧ initial.holds packet.id = false)

/-- What the stream may be made of. -/
def Allowed (whole : Datagram) (initial : Assembly) : Signal → Prop
  | frame sequence => sequence < whole.packetCount
  | stray block => Useless whole initial block

/-- The header has come, and after it every one of `n` data packets. -/
def Gathered (n : Nat) : List Signal → Prop
  | [] => False
  | frame 0 :: rest => ∀ k, 0 < k → k ≤ n → frame k ∈ rest
  | _ :: rest => Gathered n rest

variable {n : Nat} {before after seen rest : List Signal} {signal : Signal}

theorem gathered_cons_of_ne (h : signal ≠ frame 0) :
    Gathered n (signal :: rest) ↔ Gathered n rest := by
  cases signal with
  | frame sequence =>
    cases sequence with
    | zero => exact absurd rfl h
    | succ k => exact Iff.rfl
  | stray block => exact Iff.rfl

/-- Only what comes after the first header counts. -/
theorem gathered_header_iff (h : frame 0 ∉ before) :
    Gathered n (before ++ frame 0 :: after) ↔ ∀ k, 0 < k → k ≤ n → frame k ∈ after := by
  induction before with
  | nil => exact Iff.rfl
  | cons signal before ih =>
    rw [List.mem_cons, not_or] at h
    rw [List.cons_append, gathered_cons_of_ne (Ne.symm h.1), ih h.2]

theorem not_gathered (h : frame 0 ∉ seen) : ¬Gathered n seen := by
  induction seen with
  | nil => exact id
  | cons signal seen ih =>
    rw [List.mem_cons, not_or] at h
    rw [gathered_cons_of_ne (Ne.symm h.1)]
    exact ih h.2

/-- What has come has come. -/
theorem Gathered.append (h : Gathered n seen) (rest : List Signal) : Gathered n (seen ++ rest) := by
  induction seen with
  | nil => exact h.elim
  | cons signal seen ih =>
    by_cases hheader : signal = frame 0
    · subst hheader
      exact fun k hpos hle => List.mem_append_left _ (h k hpos hle)
    · rw [gathered_cons_of_ne hheader] at h
      rw [List.cons_append, gathered_cons_of_ne hheader]
      exact ih h

end Signal

/-! ## What is under way -/

/-- A part of a datagram that lacks just the data that has not come. -/
structure Datagram.Lacking (part whole : Datagram) (came : List Signal) : Prop extends
    part.PartOf whole where
  empty_iff : ∀ i < whole.slots.length, part.slots[i]? = some none ↔ .frame (i + 1) ∉ came

namespace Datagram.Lacking

variable {whole part : Datagram} {came : List Signal} {signal : Signal}

theorem awaiting (h : whole.Whole) : (Datagram.awaiting whole.header).Lacking whole [] where
  toPartOf := awaiting_partOf h
  empty_iff := by
    intro i hi
    rw [← h.packets_eq] at hi
    refine iff_of_true ?_ List.not_mem_nil
    show (List.replicate whole.header.packets.toNat none)[i]? = some none
    rw [List.getElem?_replicate, if_pos hi]

theorem complete_iff (h : part.Lacking whole came) :
    part.slots.all Option.isSome = true
      ↔ ∀ k, 0 < k → k ≤ whole.slots.length → Signal.frame k ∈ came := by
  have hlength : part.slots.length = whole.slots.length := h.length_eq
  constructor
  · intro hcomplete k hpos hle
    obtain ⟨i, rfl⟩ := Nat.exists_eq_succ_of_ne_zero (Nat.ne_of_gt hpos)
    refine Classical.byContradiction fun hmissing => ?_
    have hempty := (h.empty_iff i hle).2 hmissing
    exact absurd (List.all_eq_true.1 hcomplete _ (List.mem_of_getElem? hempty)) (by decide)
  · intro hall
    refine List.all_eq_true.2 fun slot hmem => ?_
    obtain ⟨i, hi, rfl⟩ := List.getElem_of_mem hmem
    refine Classical.byContradiction fun hslot => ?_
    have hempty : part.slots[i]? = some none := by
      rw [List.getElem?_eq_getElem hi]
      exact congrArg some (Option.not_isSome_iff_eq_none.1 hslot)
    exact (h.empty_iff i (by omega)).1 hempty (hall (i + 1) (Nat.succ_pos i) (by omega))

/-- What fills no slot changes nothing. -/
theorem idle (h : part.Lacking whole came)
    (hidle : ∀ i < whole.slots.length, signal = .frame (i + 1) → part.slots[i]? ≠ some none) :
    part.Lacking whole (came ++ [signal]) where
  toPartOf := h.toPartOf
  empty_iff := by
    intro i hi
    rw [List.mem_append, List.mem_singleton, not_or, ← h.empty_iff i hi]
    exact ⟨fun hempty => ⟨hempty, fun heq => hidle i hi heq.symm hempty⟩, And.left⟩

theorem fill (h : part.Lacking whole came) {i : Nat} (hi : i < whole.slots.length)
    {bytes : Bytes} {next : Datagram} (hpart : next.PartOf whole)
    (hnext : next = { part with slots := part.slots.set i (some bytes) }) :
    next.Lacking whole (came ++ [.frame (i + 1)]) where
  toPartOf := hpart
  empty_iff := by
    have hlength : part.slots.length = whole.slots.length := h.length_eq
    intro j hj
    rw [List.mem_append, List.mem_singleton, not_or, ← h.empty_iff j hj, hnext]
    by_cases heq : i = j
    · subst heq
      refine iff_of_false ?_ fun hboth => hboth.2 rfl
      show (part.slots.set i (some bytes))[i]? ≠ some none
      rw [List.getElem?_set_self (by omega)]
      simp
    · show (part.slots.set i (some bytes))[j]? = some none ↔ _
      rw [List.getElem?_set_ne heq]
      refine ⟨fun hempty => ⟨hempty, fun hsame => heq ?_⟩, And.left⟩
      cases hsame
      rfl

end Datagram.Lacking

namespace Assembly

open Signal (Useless Allowed Gathered gathered_header_iff not_gathered)

variable {whole : Datagram} {initial assembly : Assembly} {seen : List Signal} {signal : Signal}

/-- What is under way after the signals since the last delivery: what was under way at first, as
long as no header has come, and then a part of the datagram that lacks just the data that has not
come since. -/
inductive Under (whole : Datagram) (initial : Assembly) : List Signal → Assembly → Prop
  | waiting {seen : List Signal} (headless : .frame 0 ∉ seen) : Under whole initial seen initial
  | collecting {before after : List Signal} {part : Datagram} (headless : .frame 0 ∉ before)
      (lacking : part.Lacking whole after) (incomplete : part.slots.all Option.isSome = false) :
      Under whole initial (before ++ .frame 0 :: after) (some part)

/-- As long as something is under way, something is missing. -/
theorem Under.missing (h : Under whole initial seen assembly) :
    ¬Gathered whole.slots.length seen := by
  cases h with
  | waiting headless => exact not_gathered headless
  | collecting headless lacking incomplete =>
    rw [gathered_header_iff headless, ← lacking.complete_iff, incomplete]
    exact Bool.false_ne_true

theorem Under.holds (h : Under whole initial seen assembly) {id : UInt32}
    (hid : assembly.holds id = true) : id = whole.id ∨ initial.holds id = true := by
  cases h with
  | waiting => exact .inr hid
  | collecting headless lacking =>
    rw [← show _ = id from beq_iff_eq.1 hid, lacking.header_eq]
    exact .inl rfl

/-- A block that is of no use leaves everything as it was. -/
theorem take_useless {block : Bytes} (h : Useless whole initial block)
    (hunder : Under whole initial seen assembly) :
    ∃ receipt, assembly.take block = (receipt, assembly) ∧ receipt.Framed ∧ ¬receipt.Delivers := by
  rw [take]
  cases hpacket : Packet.ofFrame block with
  | error fault => exact ⟨_, rfl, trivial, id⟩
  | ok packet =>
    simp only
    by_cases hcrc : packet.payloadCrc = packet.crc
    case neg =>
      rw [if_pos hcrc]
      exact ⟨_, rfl, trivial, id⟩
    rw [if_neg (not_not_intro hcrc)]
    obtain ⟨hheader, hdata⟩ := h.useless packet hpacket hcrc
    rw [route?]
    cases hkind : packet.kind with
    | data =>
      obtain ⟨hwhole, hinitial⟩ := hdata hkind
      have hother : assembly.holds packet.id = false := by
        rw [Bool.eq_false_iff]
        intro hholds
        rcases hunder.holds hholds with hid | hid
        · exact hwhole hid
        · rw [hinitial] at hid
          cases hid
      simp only [acceptData_other hother]
      exact ⟨_, rfl, trivial, id⟩
    | header =>
      simp only [if_neg (hheader hkind)]
      exact ⟨_, rfl, trivial, id⟩
    | ack => exact ⟨_, rfl, trivial, id⟩
    | nack => exact ⟨_, rfl, trivial, id⟩
    | error => exact ⟨_, rfl, trivial, id⟩

/-- What one signal does: it delivers the datagram if nothing is missing with it, and else takes
what is under way to what is under way with it. -/
inductive Answered (whole : Datagram) (initial : Assembly) (seen : List Signal)
    (assembly : Assembly) (signal : Signal) : Prop
  | delivered (packet : Packet)
      (take_eq : assembly.take (signal.bytes whole) = (.delivered packet whole, none))
      (gathered : Gathered whole.slots.length (seen ++ [signal]))
  | passed (receipt : Receipt) (next : Assembly)
      (take_eq : assembly.take (signal.bytes whole) = (receipt, next))
      (framed : receipt.Framed) (passed : ¬receipt.Delivers)
      (under : Under whole initial (seen ++ [signal]) next)

/-- With another datagram under way, or none, the header starts the datagram; an empty datagram is
complete with it. -/
theorem waiting_header (hwhole : whole.Intact) (hother : initial.holds whole.id = false)
    (headless : .frame 0 ∉ seen) : Answered whole initial seen initial (.frame 0) := by
  have hroute := route?_header hwhole.check_eq hother
  rcases Nat.eq_zero_or_pos whole.slots.length with hzero | hpos
  · -- There is no data to wait for.
    rw [hwhole.awaiting_eq hzero] at hroute
    refine .delivered _ (take_packetAt_last hwhole.crc_eq hroute ?_) ?_
    · rw [List.length_eq_zero_iff.1 hzero]
      rfl
    · rw [gathered_header_iff headless, hzero]
      intro k hpos hle
      omega
  · have h := hwhole.whole_of_pos hpos
    have hincomplete := Datagram.awaiting_not_complete h
    exact .passed _ _ (take_packetAt hroute hincomplete) trivial id
      (.collecting headless (.awaiting h) hincomplete)

/-- Without a header in front of it data is refused. -/
theorem waiting_data (hother : initial.holds whole.id = false) (headless : .frame 0 ∉ seen)
    (i : Nat) : Answered whole initial seen initial (.frame (i + 1)) := by
  have hroute := route?_data whole initial i
  rw [acceptData_other (show initial.holds (whole.dataPacket (i + 1)).id = false from hother)]
    at hroute
  refine .passed _ _ (take_packetAt_refused hroute) trivial id (.waiting ?_)
  rw [List.mem_append, List.mem_singleton, not_or]
  exact ⟨headless, nofun⟩

/-- Data fills its slot, unless it is filled, and the last one that was missing delivers. -/
theorem collecting_data {before after : List Signal} {part : Datagram} (h : whole.Whole)
    (headless : .frame 0 ∉ before) (lacking : part.Lacking whole after)
    (incomplete : part.slots.all Option.isSome = false) {i : Nat} (hi : i < whole.slots.length) :
    Answered whole initial (before ++ .frame 0 :: after) (some part) (.frame (i + 1)) := by
  have hseen : before ++ .frame 0 :: after ++ [.frame (i + 1)]
      = before ++ Signal.frame 0 :: (after ++ [.frame (i + 1)]) := by
    rw [List.append_assoc, List.cons_append]
  by_cases hslot : part.slots[i]? = some none
  · obtain ⟨next, hnext⟩ : ∃ next : Datagram, next = { part with
        slots := part.slots.set i (some ((whole.data.drop (i * 128)).take 128)) } := ⟨_, rfl⟩
    obtain ⟨hpart, htake⟩ := take_data_fill h lacking.toPartOf hi hslot hnext
    have hlacking := lacking.fill hi hpart hnext
    cases hcomplete : next.slots.all Option.isSome with
    | true =>
      rw [hcomplete] at htake
      refine .delivered _ htake ?_
      rw [hseen, gathered_header_iff headless]
      exact hlacking.complete_iff.1 hcomplete
    | false =>
      rw [hcomplete] at htake
      refine .passed _ _ htake trivial id ?_
      rw [hseen]
      exact .collecting headless hlacking hcomplete
  · refine .passed _ _ (take_data_filled h lacking.toPartOf hi hslot) trivial id ?_
    rw [hseen]
    refine .collecting headless (lacking.idle ?_) incomplete
    intro j hj heq
    cases heq
    exact hslot

theorem Under.step (hwhole : whole.Intact) (hother : initial.holds whole.id = false)
    (h : Under whole initial seen assembly) (hsignal : signal.Allowed whole initial) :
    Answered whole initial seen assembly signal := by
  cases signal with
  | stray block =>
    obtain ⟨receipt, htake, hframed, hpassed⟩ := take_useless hsignal h
    refine .passed receipt assembly htake hframed hpassed ?_
    cases h with
    | waiting headless =>
      refine .waiting ?_
      rw [List.mem_append, List.mem_singleton, not_or]
      exact ⟨headless, nofun⟩
    | collecting headless lacking incomplete =>
      rw [List.append_assoc, List.cons_append]
      exact .collecting headless (lacking.idle nofun) incomplete
  | frame sequence =>
    cases h with
    | waiting headless =>
      cases sequence with
      | zero => exact waiting_header hwhole hother headless
      | succ i => exact waiting_data hother headless i
    | collecting headless lacking incomplete =>
      cases sequence with
      | zero =>
        -- Another copy of the header does not begin anew.
        refine .passed _ _ (take_header_some ⟨lacking.toPartOf, incomplete⟩) trivial id ?_
        rw [List.append_assoc, List.cons_append]
        exact .collecting headless (lacking.idle nofun) incomplete
      | succ i =>
        have hi : i < whole.slots.length := by
          have hlt : i + 1 < whole.header.packets.toNat + 1 := hsignal
          rw [hwhole.packets_eq] at hlt
          omega
        exact collecting_data (hwhole.whole_of_pos (by omega)) headless lacking incomplete hi

end Assembly

/-! ## A whole stream -/

namespace Signal

variable {whole : Datagram} {initial : Assembly} {signal : Signal}

theorem Allowed.exists_body (h : signal.Allowed whole initial) :
    ∃ body, signal.bytes whole = Packet.startMarker :: body
      ∧ body.length + 1 = Packet.frameSize := by
  cases signal with
  | frame sequence => exact ⟨_, rfl, Packet.length_toFrame (whole.packetAt sequence)⟩
  | stray block =>
    have hlength := h.length_eq
    have hmarked := h.marked
    cases block with
    | nil => cases hmarked
    | cons byte body =>
      cases hmarked
      exact ⟨body, rfl, hlength⟩

/-- After a delivery nothing is under way, and no less is allowed. -/
theorem Allowed.later (h : signal.Allowed whole initial) : signal.Allowed whole none := by
  cases signal with
  | frame sequence => exact h
  | stray block =>
    refine ⟨h.length_eq, h.marked, fun packet hpacket hcrc => ?_⟩
    obtain ⟨hheader, hdata⟩ := h.useless packet hpacket hcrc
    exact ⟨hheader, fun hkind => ⟨(hdata hkind).1, rfl⟩⟩

/-- The bytes of a stream: in front of every signal some noise. -/
def streamBytes (whole : Datagram) (stream : List (Bytes × Signal)) : Bytes :=
  stream.flatMap fun (noise, signal) => noise ++ signal.bytes whole

end Signal

open Signal (Allowed Gathered)

/-- What is received from signals, after those that came since the last delivery: the datagram with
every signal with which nothing is missing, and with no other. -/
inductive Heard (whole : Datagram) : List Signal → List Signal → List Receipt → Prop
  | nil (seen : List Signal) : Heard whole seen [] []
  | passed {seen signals : List Signal} {signal : Signal} {receipt : Receipt}
      {receipts : List Receipt} (passed : ¬receipt.Delivers)
      (missing : ¬Gathered whole.slots.length (seen ++ [signal]))
      (rest : Heard whole (seen ++ [signal]) signals receipts) :
      Heard whole seen (signal :: signals) (receipt :: receipts)
  | delivered {seen signals : List Signal} {signal : Signal} {receipts : List Receipt}
      (packet : Packet) (gathered : Gathered whole.slots.length (seen ++ [signal]))
      (rest : Heard whole [] signals receipts) :
      Heard whole seen (signal :: signals) (.delivered packet whole :: receipts)

namespace Endpoint

variable {τ : Type} [Transport τ] {pending : τ → Bytes} {whole : Datagram} {initial : Assembly}

theorem receive_block (hlink : Transport.Faithful pending) {endpoint : Endpoint τ}
    {noise body rest : Bytes} (hnoise : Packet.startMarker ∉ noise)
    (hlength : body.length + 1 = Packet.frameSize)
    (hpending : pending endpoint.link = noise ++ Packet.startMarker :: body ++ rest) :
    endpoint.receive.1 = (endpoint.assembly.take (Packet.startMarker :: body)).1
      ∧ endpoint.receive.2.assembly = (endpoint.assembly.take (Packet.startMarker :: body)).2
      ∧ pending endpoint.receive.2.link = rest := by
  obtain ⟨link', hread, hrest⟩ := Transport.readFrame_block hlink hnoise hlength hpending
  rw [receive, hread]
  exact ⟨rfl, rfl, hrest⟩

theorem receive_signal (hlink : Transport.Faithful pending) {endpoint : Endpoint τ}
    {signal : Signal} (hsignal : signal.Allowed whole initial) {noise rest : Bytes}
    (hnoise : Packet.startMarker ∉ noise)
    (hpending : pending endpoint.link = noise ++ signal.bytes whole ++ rest) :
    endpoint.receive.1 = (endpoint.assembly.take (signal.bytes whole)).1
      ∧ endpoint.receive.2.assembly = (endpoint.assembly.take (signal.bytes whole)).2
      ∧ pending endpoint.receive.2.link = rest := by
  obtain ⟨body, hbytes, hlength⟩ := hsignal.exists_body
  rw [hbytes] at hpending ⊢
  exact receive_block hlink hnoise hlength hpending

theorem receive_noise (hlink : Transport.Faithful pending) {endpoint : Endpoint τ}
    (hnoise : Packet.startMarker ∉ pending endpoint.link) :
    endpoint.receive.1 = .silence ∧ endpoint.receive.2.assembly = endpoint.assembly
      ∧ pending endpoint.receive.2.link = [] := by
  obtain ⟨link', hread, hrest⟩ := Transport.readFrame_noise hlink hnoise rfl
  rw [receive, hread]
  exact ⟨rfl, rfl, hrest⟩

/-- What gives a frame is received from further. -/
theorem receiveAll_succ {endpoint : Endpoint τ} (hframed : endpoint.receive.1.Framed)
    (limit : Nat) : endpoint.receiveAll (limit + 1)
      = (endpoint.receive.1 :: (endpoint.receive.2.receiveAll limit).1,
        (endpoint.receive.2.receiveAll limit).2) := by
  rw [receiveAll]
  generalize endpoint.receive = received at hframed ⊢
  obtain ⟨receipt, after⟩ := received
  cases receipt with
  | silence | cutShort | linkFailed => exact hframed.elim
  | malformed | corrupt | unrouted | refused | accepted | spoiled | delivered => rfl

theorem receiveAll_framed {endpoint : Endpoint τ} (hframed : endpoint.receive.1.Framed)
    (limit : Nat) : (endpoint.receiveAll (limit + 1)).1
      = endpoint.receive.1 :: (endpoint.receive.2.receiveAll limit).1 :=
  congrArg Prod.fst (receiveAll_succ hframed limit)

/-- A stream is received signal by signal, to its end. -/
theorem receiveAll_heard (hlink : Transport.Faithful pending) (hwhole : whole.Intact)
    {stream : List (Bytes × Signal)}
    (hnoise : ∀ piece ∈ stream, Packet.startMarker ∉ piece.1)
    {tail : Bytes} (htail : Packet.startMarker ∉ tail) {endpoint : Endpoint τ}
    (hpending : pending endpoint.link = Signal.streamBytes whole stream ++ tail)
    (hother : initial.holds whole.id = false)
    (hallowed : ∀ piece ∈ stream, piece.2.Allowed whole initial)
    {seen : List Signal} (hunder : Assembly.Under whole initial seen endpoint.assembly) :
    ∃ receipts, (endpoint.receiveAll (stream.length + 1)).1 = receipts ++ [.silence]
      ∧ Heard whole seen (stream.map Prod.snd) receipts := by
  -- By induction on the stream; what is under way is carried from signal to signal.
  induction stream generalizing endpoint seen initial with
  | nil =>
    have hsilence : endpoint.receive.1 = .silence :=
      (receive_noise hlink (by rw [hpending]; exact htail)).1
    refine ⟨[], ?_, .nil seen⟩
    show (endpoint.receiveAll 1).1 = _
    rw [receiveAll]
    simp only [hsilence, List.nil_append]
  | cons piece stream ih =>
    obtain ⟨noise, signal⟩ := piece
    have hsignal := hallowed _ List.mem_cons_self
    rw [Signal.streamBytes, List.flatMap_cons, List.append_assoc] at hpending
    obtain ⟨hreceipt, hassembly, hrest⟩ :=
      receive_signal hlink hsignal (hnoise _ List.mem_cons_self) hpending
    have hnoise' := fun piece hmem => hnoise piece (List.mem_cons_of_mem _ hmem)
    have hallowed' := fun piece hmem => hallowed piece (List.mem_cons_of_mem _ hmem)
    rcases hunder.step hwhole hother hsignal with
      ⟨packet, htake, hgathered⟩ | ⟨receipt, next, htake, hframed, hpassed, hunder'⟩
    · -- Nothing is missing: the datagram is delivered, and the next phase begins.
      rw [htake] at hreceipt hassembly
      have hfresh : Assembly.Under whole none [] endpoint.receive.2.assembly := by
        rw [hassembly]
        exact .waiting List.not_mem_nil
      obtain ⟨receipts, hall, hheard⟩ := ih hnoise' hrest rfl
        (fun piece hmem => (hallowed' piece hmem).later) hfresh
      refine ⟨.delivered packet whole :: receipts, ?_, .delivered packet hgathered hheard⟩
      rw [List.length_cons, receiveAll_framed (by rw [hreceipt]; trivial), hreceipt, hall,
        List.cons_append]
    · rw [htake] at hreceipt hassembly
      obtain ⟨receipts, hall, hheard⟩ := ih hnoise' hrest hother hallowed'
        (by rw [hassembly]; exact hunder')
      refine ⟨receipt :: receipts, ?_, .passed hpassed hunder'.missing hheard⟩
      rw [List.length_cons, receiveAll_framed (by rw [hreceipt]; exact hframed), hreceipt, hall,
        List.cons_append]

end Endpoint

namespace Heard

variable {whole : Datagram} {seen signals : List Signal} {receipts : List Receipt}

theorem length_eq (h : Heard whole seen signals receipts) : receipts.length = signals.length := by
  induction h with
  | nil => rfl
  | passed _ _ _ ih => rw [List.length_cons, ih, List.length_cons]
  | delivered _ _ _ ih => rw [List.length_cons, ih, List.length_cons]

/-- As long as something is missing nothing is delivered. -/
theorem quiet {front : List Signal} (h : Heard whole seen signals receipts)
    (hfront : front <+: signals) (hmissing : ¬Gathered whole.slots.length (seen ++ front)) :
    ∀ receipt ∈ receipts.take front.length, ¬receipt.Delivers := by
  induction h generalizing front with
  | nil seen =>
    rw [List.take_nil]
    exact fun receipt hmem => absurd hmem List.not_mem_nil
  | passed hpassed _ _ ih =>
    cases front with
    | nil => exact fun receipt hmem => absurd hmem List.not_mem_nil
    | cons signal front =>
      obtain ⟨rfl, hprefix⟩ := List.cons_prefix_cons.1 hfront
      rw [List.append_cons] at hmissing
      intro receipt hmem
      rcases List.mem_cons.1 hmem with rfl | hmem
      · exact hpassed
      · exact ih hprefix hmissing receipt hmem
  | delivered _ hgathered _ _ =>
    cases front with
    | nil => exact fun receipt hmem => absurd hmem List.not_mem_nil
    | cons signal front =>
      obtain ⟨rfl, -⟩ := List.cons_prefix_cons.1 hfront
      rw [List.append_cons] at hmissing
      exact absurd (hgathered.append front) hmissing

/-- Once nothing is missing the datagram has been delivered, with the signal that came last of
those it takes. -/
theorem exists_delivery (h : Heard whole seen signals receipts)
    (hmissing : ¬Gathered whole.slots.length seen)
    (hgathered : Gathered whole.slots.length (seen ++ signals)) :
    ∃ front signal back early packet later,
      signals = front ++ signal :: back ∧ receipts = early ++ .delivered packet whole :: later
        ∧ early.length = front.length
        ∧ ¬Gathered whole.slots.length (seen ++ front)
        ∧ Gathered whole.slots.length (seen ++ front ++ [signal])
        ∧ Heard whole [] back later := by
  induction h with
  | nil seen =>
    rw [List.append_nil] at hgathered
    exact absurd hgathered hmissing
  | @passed seen signals signal receipt receipts _ hmissing' _ ih =>
    rw [List.append_cons] at hgathered
    obtain ⟨front, last, back, early, packet, later, rfl, rfl, hlength, hbefore, hafter, hrest⟩ :=
      ih hmissing' hgathered
    rw [← List.append_cons] at hbefore hafter
    exact ⟨signal :: front, last, back, receipt :: early, packet, later, rfl, rfl,
      congrArg Nat.succ hlength, hbefore, hafter, hrest⟩
  | @delivered seen signals signal receipts packet hgathered' hrest _ =>
    refine ⟨[], signal, signals, [], packet, receipts, rfl, rfl, rfl, ?_, ?_, hrest⟩
    · rw [List.append_nil]
      exact hmissing
    · rw [List.append_nil]
      exact hgathered'

end Heard

/-- The signal with which nothing is missing any more is the header of an empty datagram, or else
data. -/
theorem Signal.gathered_last {n : Nat} {front : List Signal} {signal : Signal}
    (hmissing : ¬Gathered n front) (hgathered : Gathered n (front ++ [signal])) :
    ∃ k, signal = .frame k ∧ k ≤ n ∧ (k = 0 ↔ n = 0) := by
  induction front with
  | nil =>
    by_cases hheader : signal = .frame 0
    · rw [hheader] at hgathered
      refine ⟨0, hheader, Nat.zero_le n, iff_of_true rfl ?_⟩
      refine Classical.byContradiction fun hpos => ?_
      exact absurd (hgathered n (Nat.pos_of_ne_zero hpos) (Nat.le_refl n)) List.not_mem_nil
    · exact ((gathered_cons_of_ne hheader).1 hgathered).elim
  | cons head front ih =>
    by_cases hheader : head = .frame 0
    · -- From here on data counts.
      subst hheader
      refine Classical.byContradiction fun hnone => hmissing fun k hpos hle => ?_
      -- What came last is none of the data, so all data was there before it.
      refine (List.mem_append.1 (hgathered k hpos hle)).resolve_right fun hlast => hnone ?_
      refine ⟨k, (List.mem_singleton.1 hlast).symm, hle, ?_⟩
      exact iff_of_false (Nat.ne_of_gt hpos) (by omega)
    · rw [gathered_cons_of_ne hheader] at hmissing
      rw [List.cons_append, gathered_cons_of_ne hheader] at hgathered
      exact ih hmissing hgathered

namespace Endpoint

variable {τ : Type} [Transport τ] {pending : τ → Bytes}

/-- Reassembly from a noisy stream. Frames of a datagram come in any order and any number of times,
with noise and useless blocks between them, at an endpoint where another datagram is under way or
none. Each signal is answered by one receipt. If the header comes and after it all data, then the
datagram is delivered with the frame that came last of these, not before, and not again before
the header and all data have come once more. If not, nothing is delivered. -/
theorem stream_delivers (hlink : Transport.Faithful pending) (kind : Datagram.Kind) (id : UInt32)
    (target : Option UInt8) {data : Bytes} (hfits : data.length ≤ Datagram.maxSize)
    {whole : Datagram} (hwhole : whole = .pack kind id target data)
    (endpoint : Endpoint τ) (hother : endpoint.assembly.holds id = false)
    (stream : List (Bytes × Signal)) (tail : Bytes)
    (hpending : pending endpoint.link = Signal.streamBytes whole stream ++ tail)
    (hnoise : ∀ piece ∈ stream, Packet.startMarker ∉ piece.1)
    (htail : Packet.startMarker ∉ tail)
    (hallowed : ∀ piece ∈ stream, piece.2.Allowed whole endpoint.assembly) :
    Datagram.compose kind id target data = .ok whole
      ∧ whole.kind = kind ∧ whole.id = id ∧ whole.header.target = target ∧ whole.data = data
      ∧ ∃ receipts, (endpoint.receiveAll (stream.length + 1)).1 = receipts ++ [.silence]
        ∧ receipts.length = stream.length
        ∧ (¬Gathered (Datagram.packetsFor data.length) (stream.map Prod.snd) →
          ∀ receipt ∈ receipts, ¬receipt.Delivers)
        ∧ (Gathered (Datagram.packetsFor data.length) (stream.map Prod.snd) →
          ∃ front k back early packet later,
            stream.map Prod.snd = front ++ .frame k :: back
            ∧ ¬Gathered (Datagram.packetsFor data.length) front
            ∧ Gathered (Datagram.packetsFor data.length) (front ++ [.frame k])
            ∧ k ≤ Datagram.packetsFor data.length ∧ (k = 0 ↔ data = [])
            ∧ receipts = early ++ .delivered packet whole :: later
            ∧ early.length = front.length ∧ (∀ receipt ∈ early, ¬receipt.Delivers)
            ∧ ∀ again, again <+: back → ¬Gathered (Datagram.packetsFor data.length) again →
              ∀ receipt ∈ later.take again.length, ¬receipt.Delivers) := by
  have hslots : whole.slots.length = Datagram.packetsFor data.length := by
    rw [hwhole, Datagram.length_slots_pack]
  have hintact : whole.Intact := by
    rw [hwhole]
    exact Datagram.pack_intact kind id target hfits
  have hholds : endpoint.assembly.holds whole.id = false := by
    rw [hwhole]
    exact hother
  obtain ⟨receipts, hall, hheard⟩ := receiveAll_heard hlink hintact hnoise htail hpending hholds
    hallowed (.waiting List.not_mem_nil)
  have hlength := hheard.length_eq
  have hquiet : ∀ front, front <+: stream.map Prod.snd → ¬Gathered whole.slots.length front →
      ∀ receipt ∈ receipts.take front.length, ¬receipt.Delivers := fun _ => hheard.quiet
  rw [← hslots]
  refine ⟨?_, by rw [hwhole]; rfl, by rw [hwhole]; rfl, by rw [hwhole]; rfl, ?_, receipts, hall,
    ?_, ?_, ?_⟩
  · rw [hwhole]
    exact if_neg (Nat.not_lt.2 hfits)
  · rw [hwhole]
    exact Datagram.data_pack kind id target hfits
  · rw [hlength, List.length_map]
  · intro hmissing
    have h := hquiet _ (List.prefix_refl _) hmissing
    rw [← hlength, List.take_length] at h
    exact h
  · intro hgathered
    obtain ⟨front, signal, back, early, packet, later, hsignals, hreceipts, hearly, hbefore,
      hafter, hrest⟩ := hheard.exists_delivery (fun hnone => hnone) hgathered
    obtain ⟨k, rfl, hle, hzero⟩ := Signal.gathered_last hbefore hafter
    have hempty : whole.slots.length = 0 ↔ data = [] := by
      rw [hslots, ← List.length_eq_zero_iff, Datagram.packetsFor]
      omega
    refine ⟨front, k, back, early, packet, later, hsignals, hbefore, hafter, hle,
      hzero.trans hempty, hreceipts, hearly, ?_, fun again hprefix hmissing => ?_⟩
    · have h := hquiet front (hsignals ▸ List.prefix_append _ _) hbefore
      rw [hreceipts, ← hearly, List.take_left] at h
      exact h
    · exact hrest.quiet hprefix hmissing

/-- Data comes in front of its header, then a block of no use, the header twice, and data. -/
def interruptedStream : List (Bytes × Signal) :=
  [([0x00, 0x55], .frame 1), ([], .frame 0),
    ([0xBB], .stray (Packet.startMarker :: List.replicate 141 0x00)), ([], .frame 0),
    ([0x01], .frame 1)]

theorem stream_delivers_interrupted :
    let whole := Datagram.pack .firmwareChunk 7 none [0x01, 0x02, 0x03]
    let incoming := Signal.streamBytes whole interruptedStream ++ [0xCC]
    let endpoint : Endpoint Loopback := { link := { capacity := 1024, incoming } }
    ∃ early packet, (endpoint.receiveAll 6).1 = early ++ [.delivered packet whole, .silence]
      ∧ early.length = 4 ∧ ∀ receipt ∈ early, ¬receipt.Delivers := by
  intro whole incoming endpoint
  have huseless : Signal.Useless whole none
      (Packet.startMarker :: List.replicate 141 0x00) := by
    refine ⟨rfl, rfl, fun packet hpacket => ?_⟩
    have hlength : (Packet.startMarker :: List.replicate 141 0x00).length = Packet.frameSize := by
      rw [List.length_cons, List.length_replicate]
      rfl
    rw [Packet.ofFrame, hlength, if_neg (Nat.lt_irrefl _), if_pos (.inr (by decide))] at hpacket
    cases hpacket
  have hallowed : ∀ piece ∈ interruptedStream, piece.2.Allowed whole none := by
    intro piece hmem
    simp only [interruptedStream, List.mem_cons, List.not_mem_nil, or_false] at hmem
    rcases hmem with rfl | rfl | rfl | rfl | rfl
    · exact (by decide : 1 < 2)
    · exact (by decide : 0 < 2)
    · exact huseless
    · exact (by decide : 0 < 2)
    · exact (by decide : 1 < 2)
  obtain ⟨-, -, -, -, -, receipts, hall, hlength, -, hdelivers⟩ :=
    stream_delivers Transport.loopback_faithful .firmwareChunk 7 none
      (by decide : [0x01, 0x02, 0x03].length ≤ Datagram.maxSize) rfl endpoint rfl
      interruptedStream [0xCC] rfl (by decide) (by decide) hallowed
  have hgathered : Gathered 1 (interruptedStream.map Prod.snd) := by
    intro k hpos hle
    obtain rfl : k = 1 := by omega
    decide
  obtain ⟨front, k, back, early, packet, later, hsignals, -, hafter, hle, hzero, hreceipts,
    hearly, hquiet, -⟩ := hdelivers hgathered
  obtain rfl : k = 1 := by
    have hpos : k ≠ 0 := fun hk => List.cons_ne_nil _ _ (hzero.1 hk)
    have hmost : k ≤ 1 := hle
    omega
  have hcount : front.length + (back.length + 1) = 5 := by
    have hmany := congrArg List.length hsignals
    rw [List.length_append, List.length_cons] at hmany
    exact hmany.symm
  have hplace : ∀ j < 5, (interruptedStream.map Prod.snd)[j]? = some (.frame 1) →
      j = 0 ∨ j = 4 := by decide
  have hfour : front.length = 4 := by
    refine (hplace front.length (by omega) ?_).resolve_left fun hnone => ?_
    · rw [hsignals, List.getElem?_append_right (Nat.le_refl _), Nat.sub_self,
        List.getElem?_cons_zero]
    · -- The data in front of the header completes nothing.
      rw [List.length_eq_zero_iff.1 hnone] at hafter
      exact hafter
  have hlater : later = [] := by
    have hmany : receipts.length = 5 := hlength
    rw [hreceipts, List.length_append, List.length_cons] at hmany
    exact List.length_eq_zero_iff.1 (by omega)
  refine ⟨early, packet, ?_, by omega, hquiet⟩
  rw [hlater] at hreceipts
  rw [hreceipts, List.append_assoc] at hall
  exact hall

end Endpoint

end Reflash
