/-
  Reflash.Proofs.Tally

  Every byte and every frame that comes off a link is counted once. A call looks for the
  first start marker. Without one all that is at hand is noise; with too little behind it
  all that is at hand is lost, as noise and a frame cut short; else one frame comes off,
  and what is behind it stays. So the bytes that are gone are those passed over and those
  of frames and of parts of frames, and each frame is counted once more for what came of
  it. Only a packet that is taken changes the datagram under way or hands one on.
-/
import Mathlib.Algebra.GroupWithZero.Nat
import Reflash.Proofs.Retransmission

namespace Reflash

/-! ## Receipts -/

namespace Receipt

/-- The stream ran dry before a whole frame had come. -/
def isIdle : Receipt → Bool
  | silence | cutShort _ => true
  | _ => false

/-- The packet was taken, and its datagram is still incomplete. -/
def isAccepted : Receipt → Bool
  | accepted _ => true
  | _ => false

/-- How many bytes there were of a frame. -/
def span : Receipt → Nat
  | silence | linkFailed _ => 0
  | cutShort filled => filled
  | _ => Packet.frameSize

variable {receipt : Receipt}

theorem Framed.span_eq (h : receipt.Framed) : receipt.span = 142 := by
  cases receipt with
  | silence | cutShort | linkFailed => exact h.elim
  | malformed | corrupt | unrouted | refused | accepted | spoiled | delivered => rfl

theorem Framed.isIdle_eq (h : receipt.Framed) : receipt.isIdle = false := by
  cases receipt with
  | silence | cutShort | linkFailed => exact h.elim
  | malformed | corrupt | unrouted | refused | accepted | spoiled | delivered => rfl

/-- What was not taken is not handed on. -/
theorem handOver_untaken {σ : Type} (h : receipt.isTaken = false)
    (handler : Datagram → StateM σ (Except Fault Unit)) :
    receipt.handOver handler = pure none := by
  cases receipt with
  | delivered => cases h
  | _ => rfl

end Receipt

/-! ## Counters -/

namespace LinkStats

/-- All of the counters. -/
def counters (stats : LinkStats) : List Nat :=
  [stats.frames, stats.malformed, stats.crcFailed, stats.unrouted, stats.partialFrames,
    stats.skipped, stats.rejected, stats.delivered, stats.spoiled]

/-- The frames that were not just accepted. -/
def settled (stats : LinkStats) : Nat :=
  stats.malformed + stats.crcFailed + stats.unrouted + stats.rejected + stats.delivered
    + stats.spoiled

/-- Counts bytes that were passed over. -/
def pass (stats : LinkStats) (passed : Nat) : LinkStats :=
  { stats with skipped := stats.skipped + passed }

@[simp] theorem frames_pass (stats : LinkStats) (passed : Nat) :
    (stats.pass passed).frames = stats.frames := rfl

@[simp] theorem partialFrames_pass (stats : LinkStats) (passed : Nat) :
    (stats.pass passed).partialFrames = stats.partialFrames := rfl

@[simp] theorem skipped_pass (stats : LinkStats) (passed : Nat) :
    (stats.pass passed).skipped = stats.skipped + passed := rfl

/-- Each frame is counted once more, unless it was just accepted. -/
theorem frames_count {stats : LinkStats} {accepted : Nat}
    (h : stats.frames = stats.settled + accepted) (receipt : Receipt) :
    (stats.count receipt).frames
      = (stats.count receipt).settled + (accepted + if receipt.isAccepted then 1 else 0) := by
  cases receipt <;> simp [count, settled, Receipt.isAccepted] at h ⊢ <;> omega

/-- No counter is ahead of the frames, whole or not, and the bytes passed over. -/
theorem le_of_mem_counters {stats : LinkStats} (h : stats.settled ≤ stats.frames) {counter : Nat}
    (hmem : counter ∈ stats.counters) :
    counter ≤ stats.frames + stats.partialFrames + stats.skipped := by
  simp only [counters, List.mem_cons, List.not_mem_nil, or_false] at hmem
  rw [settled] at h
  omega

theorem skipped_count (stats : LinkStats) (receipt : Receipt) :
    (stats.count receipt).skipped = stats.skipped := by
  cases receipt <;> rfl

theorem count_framed (stats : LinkStats) {receipt : Receipt} (h : receipt.Framed) :
    (stats.count receipt).frames = stats.frames + 1
      ∧ (stats.count receipt).partialFrames = stats.partialFrames := by
  cases receipt with
  | silence | cutShort | linkFailed => exact h.elim
  | malformed | corrupt | unrouted | refused | accepted | spoiled | delivered => exact ⟨rfl, rfl⟩

end LinkStats

/-! ## One call -/

/-- What begins with the first start marker. -/
theorem Packet.dropWhile_noise {noise rest : Bytes} (h : startMarker ∉ noise) :
    (noise ++ startMarker :: rest).dropWhile (· ≠ startMarker) = startMarker :: rest := by
  have hpassed : ∀ byte ∈ noise, decide (byte ≠ startMarker) = true :=
    fun byte hbyte => decide_eq_true fun heq => h (heq ▸ hbyte)
  rw [List.dropWhile_append_of_pos hpassed, List.dropWhile_cons_of_neg (by simp)]

/-- What becomes of the bytes at hand: what is received, what is under way then, how many bytes are
passed over, and which are left. -/
inductive Assembly.Sifts (assembly : Assembly) (before : Bytes) :
    Receipt → Assembly → Nat → Bytes → Prop
  | silence (unmarked : Packet.startMarker ∉ before) :
      Sifts assembly before .silence assembly before.length []
  | cutShort {noise body : Bytes} (before_eq : before = noise ++ Packet.startMarker :: body)
      (unmarked : Packet.startMarker ∉ noise) (short : body.length < 141) :
      Sifts assembly before (.cutShort (body.length + 1)) assembly noise.length []
  | frame {noise body rest : Bytes}
      (before_eq : before = noise ++ Packet.startMarker :: (body ++ rest))
      (unmarked : Packet.startMarker ∉ noise) (whole : body.length = 141) :
      Sifts assembly before (assembly.take (Packet.startMarker :: body)).1
        (assembly.take (Packet.startMarker :: body)).2 noise.length rest

namespace Assembly.Sifts

variable {assembly next : Assembly} {before left : Bytes} {receipt : Receipt} {passed : Nat}

/-- What is gone was passed over, or is part of a frame. -/
theorem gone (h : assembly.Sifts before receipt next passed left) :
    ∃ bytes, before = bytes ++ left ∧ bytes.length = passed + receipt.span := by
  cases h with
  | silence unmarked => exact ⟨before, (List.append_nil _).symm, rfl⟩
  | cutShort before_eq unmarked short =>
    refine ⟨before, (List.append_nil _).symm, ?_⟩
    rw [before_eq, List.length_append, List.length_cons]
    rfl
  | @frame noise body _ before_eq unmarked whole =>
    refine ⟨noise ++ Packet.startMarker :: body, ?_, ?_⟩
    · rw [before_eq, List.append_assoc, List.cons_append]
    · rw [(take_framed assembly _).span_eq, List.length_append, List.length_cons, whole]

/-- A frame is missing when the first marker has too little behind it. -/
theorem idle_iff (h : assembly.Sifts before receipt next passed left) :
    receipt.isIdle = true ↔ ∀ noise rest : Bytes, Packet.startMarker ∉ noise →
      before = noise ++ Packet.startMarker :: rest → rest.length < 141 := by
  cases h with
  | silence unmarked =>
    refine iff_of_true rfl fun noise rest hnoise hbefore => absurd ?_ unmarked
    rw [hbefore]
    exact List.mem_append_right _ List.mem_cons_self
  | cutShort before_eq unmarked short =>
    refine iff_of_true rfl fun noise rest hnoise hbefore => ?_
    -- There is only one way to cut the bytes at the first marker.
    rw [before_eq] at hbefore
    have hsame := congrArg (List.dropWhile (· ≠ Packet.startMarker)) hbefore
    rw [Packet.dropWhile_noise unmarked, Packet.dropWhile_noise hnoise] at hsame
    exact (List.cons.inj hsame).2 ▸ short
  | @frame noise body _ before_eq unmarked whole =>
    rw [(take_framed assembly _).isIdle_eq]
    refine iff_of_false Bool.false_ne_true fun hall => ?_
    have hlength := hall noise _ unmarked before_eq
    rw [List.length_append] at hlength
    omega

theorem left_of_idle (h : assembly.Sifts before receipt next passed left)
    (hidle : receipt.isIdle = true) : left = [] := by
  cases h with
  | silence unmarked => rfl
  | cutShort before_eq unmarked short => rfl
  | frame before_eq unmarked whole =>
    rw [(take_framed assembly _).isIdle_eq] at hidle
    cases hidle

/-- A frame is counted, or a part of one, or neither, as bytes of it have come. -/
theorem counted (h : assembly.Sifts before receipt next passed left) (stats : LinkStats) :
    (receipt.span = 142 ∧ (stats.count receipt).frames = stats.frames + 1
        ∧ (stats.count receipt).partialFrames = stats.partialFrames)
      ∨ (0 < receipt.span ∧ receipt.span < 142 ∧ (stats.count receipt).frames = stats.frames
        ∧ (stats.count receipt).partialFrames = stats.partialFrames + 1)
      ∨ (receipt.span = 0 ∧ (stats.count receipt).frames = stats.frames
        ∧ (stats.count receipt).partialFrames = stats.partialFrames) := by
  cases h with
  | silence unmarked => exact .inr (.inr ⟨rfl, rfl, rfl⟩)
  | cutShort before_eq unmarked short =>
    exact .inr (.inl ⟨Nat.succ_pos _, Nat.succ_lt_succ short, rfl, rfl⟩)
  | @frame _ body _ before_eq unmarked whole =>
    have hframed := take_framed assembly (Packet.startMarker :: body)
    exact .inl ⟨hframed.span_eq, stats.count_framed hframed⟩

end Assembly.Sifts

namespace Endpoint

variable {τ : Type} [Transport τ] {pending : τ → Bytes}

/-- A call finds noise, a frame cut short, or a frame. -/
theorem receive_sifts (hlink : Transport.Faithful pending) (endpoint : Endpoint τ) :
    ∃ passed, endpoint.assembly.Sifts (pending endpoint.link) endpoint.receive.1
        endpoint.receive.2.assembly passed (pending endpoint.receive.2.link)
      ∧ endpoint.receive.2.stats = (endpoint.stats.pass passed).count endpoint.receive.1 := by
  by_cases hmarked : Packet.startMarker ∈ pending endpoint.link
  · obtain ⟨noise, rest, hpending, hnoise⟩ := List.eq_append_cons_of_mem hmarked
    by_cases hshort : rest.length < 141
    · obtain ⟨link', hread, hleft⟩ :=
        Transport.readFrame_short hlink hnoise (Nat.succ_lt_succ hshort) hpending
      refine ⟨noise.length, ?_, by rw [receive, hread]; rfl⟩
      rw [receive, hread]
      simp only [hleft]
      exact .cutShort hpending hnoise hshort
    · have hwhole : (rest.take 141).length = 141 := List.length_take_of_le (Nat.le_of_not_lt hshort)
      have hparts : pending endpoint.link
          = noise ++ Packet.startMarker :: rest.take 141 ++ rest.drop 141 := by
        rw [hpending, List.append_assoc, List.cons_append, List.take_append_drop]
      obtain ⟨link', hread, hleft⟩ :=
        Transport.readFrame_block hlink hnoise (congrArg Nat.succ hwhole) hparts
      refine ⟨noise.length, ?_, by rw [receive, hread]; rfl⟩
      rw [receive, hread]
      simp only [hleft]
      exact .frame (by rw [hpending, List.take_append_drop]) hnoise hwhole
  · obtain ⟨link', hread, hleft⟩ := Transport.readFrame_noise hlink hmarked rfl
    refine ⟨(pending endpoint.link).length, ?_, by rw [receive, hread]; rfl⟩
    rw [receive, hread]
    simp only [hleft]
    exact .silence hmarked

end Endpoint

/-! ## Runs -/

/-- An endpoint of a link held in memory, the bytes that were queued for it, and what came of
them. -/
structure Tally where
  endpoint : Endpoint Loopback
  queued : Bytes := []
  receipts : List Receipt := []

namespace Tally

/-- An endpoint of an empty link. -/
def start (capacity : Nat) : Tally where
  endpoint := { link := { capacity } }

/-- What happens to an endpoint. -/
inductive Event where
  /-- Bytes come, as many as find room. -/
  | feed (bytes : Bytes)
  | receive
  | send (datagram : Datagram)
  /-- What was sent is taken off the link. -/
  | collect

/-- The bytes that come. -/
def Event.bytes : Event → Bytes
  | feed bytes => bytes
  | _ => []

def step (tally : Tally) : Event → Tally
  | .feed bytes => { tally with
      endpoint.link := tally.endpoint.link.feed bytes
      queued := tally.queued
        ++ bytes.take (tally.endpoint.link.capacity - tally.endpoint.link.incoming.length) }
  | .receive => { tally with
      endpoint := tally.endpoint.receive.2
      receipts := tally.receipts ++ [tally.endpoint.receive.1] }
  | .send datagram => { tally with endpoint := (tally.endpoint.send datagram).2 }
  | .collect => { tally with endpoint.link := tally.endpoint.link.clearSent }

def run (tally : Tally) (events : List Event) : Tally :=
  events.foldl step tally

/-- Every byte that was queued waits, or was counted; every frame was counted for what came of
it. -/
structure Balanced (tally : Tally) : Prop where
  bytes_eq : ∃ gone, tally.queued = gone ++ tally.endpoint.link.incoming
    ∧ gone.length = tally.endpoint.stats.skipped + (tally.receipts.map Receipt.span).sum
  spans : tally.endpoint.stats.frames + tally.endpoint.stats.partialFrames
    ≤ (tally.receipts.map Receipt.span).sum
  frames_eq : tally.endpoint.stats.frames
    = tally.endpoint.stats.settled + tally.receipts.countP Receipt.isAccepted

variable {tally : Tally}

theorem start_balanced (capacity : Nat) : (start capacity).Balanced where
  bytes_eq := ⟨[], rfl, rfl⟩
  spans := Nat.le_refl _
  frames_eq := rfl

/-- What changes neither the counters nor what waits keeps the balance. -/
theorem Balanced.still (h : tally.Balanced) {endpoint : Endpoint Loopback}
    (hstats : endpoint.stats = tally.endpoint.stats)
    (hincoming : endpoint.link.incoming = tally.endpoint.link.incoming) :
    Balanced { tally with endpoint } where
  bytes_eq := by
    rw [hstats, hincoming]
    exact h.bytes_eq
  spans := hstats ▸ h.spans
  frames_eq := hstats ▸ h.frames_eq

theorem Balanced.receive (h : tally.Balanced) : (tally.step .receive).Balanced := by
  obtain ⟨passed, hsifts, hstats⟩ :=
    Endpoint.receive_sifts Transport.loopback_faithful tally.endpoint
  obtain ⟨gone, hqueued, hgone⟩ := h.bytes_eq
  obtain ⟨bytes, hbefore, hbytes⟩ := hsifts.gone
  have hspans := h.spans
  -- What this call takes off the link follows what the earlier ones have taken.
  refine ⟨⟨gone ++ bytes, ?_, ?_⟩, ?_, ?_⟩
  · show tally.queued = _
    rw [hqueued, hbefore, List.append_assoc]
    rfl
  · show _ = tally.endpoint.receive.2.stats.skipped
      + ((tally.receipts ++ [tally.endpoint.receive.1]).map Receipt.span).sum
    rw [hstats, LinkStats.skipped_count, LinkStats.skipped_pass, List.length_append, hgone, hbytes,
      List.map_append, List.sum_append, List.map_singleton, List.sum_singleton]
    omega
  · show tally.endpoint.receive.2.stats.frames + tally.endpoint.receive.2.stats.partialFrames
      ≤ ((tally.receipts ++ [tally.endpoint.receive.1]).map Receipt.span).sum
    rw [hstats, List.map_append, List.sum_append, List.map_singleton, List.sum_singleton]
    rcases hsifts.counted (tally.endpoint.stats.pass passed) with
      ⟨hspan, hframes, hpartial⟩ | ⟨hspan, -, hframes, hpartial⟩ | ⟨hspan, hframes, hpartial⟩
    all_goals
      rw [hframes, hpartial, LinkStats.frames_pass, LinkStats.partialFrames_pass]
      omega
  · show tally.endpoint.receive.2.stats.frames = tally.endpoint.receive.2.stats.settled
      + (tally.receipts ++ [tally.endpoint.receive.1]).countP Receipt.isAccepted
    rw [hstats, List.countP_append, List.countP_singleton]
    have hframes : (tally.endpoint.stats.pass passed).frames
        = (tally.endpoint.stats.pass passed).settled + tally.receipts.countP Receipt.isAccepted :=
      h.frames_eq
    exact LinkStats.frames_count hframes _

theorem Balanced.step (h : tally.Balanced) (event : Event) : (tally.step event).Balanced := by
  cases event with
  | feed bytes =>
    obtain ⟨gone, hqueued, hgone⟩ := h.bytes_eq
    refine ⟨⟨gone, ?_, hgone⟩, h.spans, h.frames_eq⟩
    show tally.queued ++ _ = gone ++ (tally.endpoint.link.incoming ++ _)
    rw [hqueued, List.append_assoc]
  | receive => exact h.receive
  | send datagram =>
    refine h.still ?_ ?_
    · rw [Endpoint.send_eq]
    · exact Endpoint.send_keeps
        (P := fun link => link.incoming = tally.endpoint.link.incoming)
        (fun bytes link hlink => (Transport.loopback_duplex.write_pending bytes link).trans hlink)
        (fun link hlink => hlink) datagram rfl
  | collect => exact h.still rfl rfl

theorem Balanced.run (h : tally.Balanced) (events : List Event) : (tally.run events).Balanced := by
  induction events generalizing tally with
  | nil => exact h
  | cons event events ih => exact ih (h.step event)

/-- No more is queued than comes. -/
theorem length_queued_run (tally : Tally) (events : List Event) :
    (tally.run events).queued.length
      ≤ tally.queued.length + (events.flatMap Event.bytes).length := by
  induction events generalizing tally with
  | nil => exact Nat.le_add_right _ _
  | cons event events ih =>
    have hrest := ih (tally.step event)
    have hstep : (tally.step event).queued.length ≤ tally.queued.length + event.bytes.length := by
      cases event with
      | feed bytes =>
        show (tally.queued ++ bytes.take _).length ≤ _
        rw [List.length_append, List.length_take]
        exact Nat.add_le_add_left (Nat.min_le_right _ _) _
      | receive | send | collect => exact Nat.le_refl _
    rw [List.flatMap_cons, List.length_append]
    exact Nat.le_trans hrest (by omega)

/-- No counter is ahead of the bytes that came. -/
theorem Balanced.le_of_mem_counters (h : tally.Balanced) {counter : Nat}
    (hmem : counter ∈ tally.endpoint.stats.counters) : counter ≤ tally.queued.length := by
  obtain ⟨gone, hqueued, hgone⟩ := h.bytes_eq
  have hspans := h.spans
  have hcounter := LinkStats.le_of_mem_counters (h.frames_eq ▸ Nat.le_add_right _ _) hmem
  rw [hqueued, List.length_append]
  omega

/-- Whatever comes over a link held in memory, every frame is counted once for what came of it, and
no byte is lost from the count: as long as fewer bytes come than 32 bits can count, no counter needs
more than 32 bits. A call takes off the link what it passes over and, when it counts a frame or a
part of one, the bytes of that. It finds no frame exactly when the first start marker, if there is
one, has less than the rest of a frame behind it, and then nothing is left; and unless a packet is
taken, the datagram under way stays as it is and nothing is handed on. -/
theorem every_byte_counted :
    (∀ (capacity : Nat) (events : List Event),
      let tally := (start capacity).run events
      let stats := tally.endpoint.stats
      stats.frames = stats.malformed + stats.crcFailed + stats.unrouted + stats.rejected
          + stats.delivered + stats.spoiled + tally.receipts.countP Receipt.isAccepted
        ∧ (∃ gone, tally.queued = gone ++ tally.endpoint.link.incoming
          ∧ gone.length = stats.skipped + (tally.receipts.map Receipt.span).sum)
        ∧ ((events.flatMap Event.bytes).length < 2 ^ 32 →
          ∀ counter ∈ stats.counters, counter < 2 ^ 32))
    ∧ ∀ endpoint : Endpoint Loopback,
      let receipt := endpoint.receive.1
      let next := endpoint.receive.2
      (∃ gone passed, endpoint.link.incoming = gone ++ next.link.incoming
        ∧ next.stats.skipped = endpoint.stats.skipped + passed
        ∧ ((gone.length = passed + 142 ∧ next.stats.frames = endpoint.stats.frames + 1
            ∧ next.stats.partialFrames = endpoint.stats.partialFrames)
          ∨ (∃ filled, 1 ≤ filled ∧ filled ≤ 141 ∧ gone.length = passed + filled
            ∧ next.stats.frames = endpoint.stats.frames
            ∧ next.stats.partialFrames = endpoint.stats.partialFrames + 1)
          ∨ (gone.length = passed ∧ next.stats.frames = endpoint.stats.frames
            ∧ next.stats.partialFrames = endpoint.stats.partialFrames)))
      ∧ (receipt.isIdle = true ↔ ∀ noise rest : Bytes, Packet.startMarker ∉ noise →
          endpoint.link.incoming = noise ++ Packet.startMarker :: rest → rest.length < 141)
      ∧ (receipt.isIdle = true → next.link.incoming = [])
      ∧ (receipt.isTaken = false → next.assembly = endpoint.assembly
        ∧ ∀ {σ : Type} (handler : Datagram → StateM σ (Except Fault Unit)),
          receipt.handOver handler = pure none) := by
  refine ⟨fun capacity events => ?_, fun endpoint => ?_⟩
  · have hbalanced := (start_balanced capacity).run events
    refine ⟨hbalanced.frames_eq, hbalanced.bytes_eq, fun hfew counter hmem => ?_⟩
    have hqueued := length_queued_run (start capacity) events
    rw [show (start capacity).queued = [] from rfl, List.length_nil, Nat.zero_add] at hqueued
    exact Nat.lt_of_le_of_lt (Nat.le_trans (hbalanced.le_of_mem_counters hmem) hqueued) hfew
  · obtain ⟨passed, hsifts, hstats⟩ :=
      Endpoint.receive_sifts Transport.loopback_faithful endpoint
    obtain ⟨gone, hbefore, hgone⟩ := hsifts.gone
    refine ⟨⟨gone, passed, hbefore, ?_, ?_⟩, hsifts.idle_iff, hsifts.left_of_idle,
      fun huntaken => ⟨?_, fun handler => Receipt.handOver_untaken huntaken handler⟩⟩
    · rw [hstats, LinkStats.skipped_count, LinkStats.skipped_pass]
    · rw [hstats]
      rcases hsifts.counted (endpoint.stats.pass passed) with
        ⟨hspan, hcounts⟩ | ⟨hpos, hshort, hcounts⟩ | ⟨hspan, hcounts⟩
      · exact .inl ⟨hspan ▸ hgone, hcounts⟩
      · exact .inr (.inl ⟨_, hpos, Nat.le_of_lt_succ hshort, hgone, hcounts⟩)
      · exact .inr (.inr ⟨by rw [hgone, hspan, Nat.add_zero], hcounts⟩)
    · exact endpoint.receive_advances.kept_of_untaken huntaken

/-- Noise in front of a block of start markers, and another marker with a byte behind it. -/
def Event.torn : List Event :=
  [.feed ([1, 2] ++ List.replicate 142 Packet.startMarker ++ [Packet.startMarker, 3]),
    .receive, .receive, .receive]

/-- The block of markers is one frame, which is malformed, and what is behind it is cut short. -/
theorem every_byte_counted_torn :
    ((start 256).run Event.torn).receipts.map Receipt.span = [142, 2, 0]
      ∧ ((start 256).run Event.torn).endpoint.stats
        = { frames := 1, malformed := 1, partialFrames := 1, skipped := 2 }
      ∧ ∀ counter ∈ ((start 256).run Event.torn).endpoint.stats.counters, counter < 2 ^ 32 :=
  ⟨by decide +kernel, by decide +kernel,
    (every_byte_counted.1 256 Event.torn).2.2 (by decide +kernel)⟩

end Tally

end Reflash
