/-
  Reflash.Proofs.Link

  A link that keeps the order of bytes may give them in pieces of any length: noise is
  passed over, and frames come off it whole, one by one. A link held in memory is such
  a link; nothing comes off it when it is empty, and a datagram for which there is room
  goes onto it frame by frame.
-/
import Reflash.Link.Endpoint
import Reflash.Link.Loopback

namespace Reflash

namespace Transport

/-! ## Links that keep the order of bytes -/

/-- A read gives the first of the bytes at hand, at least one of them and as many as it likes, and
runs out of time only when there are none. -/
structure Faithful {τ : Type} [Transport τ] (pending : τ → Bytes) : Prop where
  read_nil : ∀ (n : Nat) (link : τ), 0 < n → pending link = [] →
    (read n link).1 = .error .timedOut ∧ pending (read n link).2 = []
  read_cons : ∀ (n : Nat) (link : τ), 0 < n → pending link ≠ [] →
    ∃ k, 0 < k ∧ k ≤ n ∧ (read n link).1 = .ok ((pending link).take k)
      ∧ pending (read n link).2 = (pending link).drop k

section Reading

variable {τ : Type} [Transport τ] {pending : τ → Bytes}

theorem read_one (h : Faithful pending) {link : τ} {byte : UInt8} {rest : Bytes}
    (hpending : pending link = byte :: rest) :
    ∃ link', read 1 link = (.ok [byte], link') ∧ pending link' = rest := by
  obtain ⟨k, hpos, hle, hanswer, hafter⟩ :=
    h.read_cons 1 link Nat.one_pos (by rw [hpending]; exact List.cons_ne_nil _ _)
  obtain rfl : k = 1 := by omega
  rw [hpending] at hanswer hafter
  exact ⟨(read 1 link).2, Prod.ext hanswer rfl, hafter⟩

/-- A byte that is no start marker is passed over. -/
theorem seek_skip (h : Faithful pending) {byte : UInt8} (hbyte : byte ≠ Packet.startMarker)
    (skipped : Nat) {rest : Bytes} {link : τ} (hpending : pending link = byte :: rest) :
    ∃ link', seek skipped link = seek (skipped + 1) link' ∧ pending link' = rest := by
  obtain ⟨link', hread, hrest⟩ := read_one h hpending
  refine ⟨link', ?_, hrest⟩
  rw [seek.eq_def]
  split <;> rename_i heq <;> rw [hread] at heq <;> cases heq
  rw [if_neg hbyte]

/-- Noise is passed over up to a start marker. -/
theorem seek_noise (h : Faithful pending) {noise rest : Bytes} (hnoise : Packet.startMarker ∉ noise)
    (skipped : Nat) {link : τ} (hpending : pending link = noise ++ Packet.startMarker :: rest) :
    ∃ link', seek skipped link = (none, skipped + noise.length, link') ∧ pending link' = rest := by
  induction noise generalizing skipped link with
  | nil =>
    obtain ⟨link', hread, hrest⟩ := read_one h hpending
    refine ⟨link', ?_, hrest⟩
    rw [seek.eq_def]
    split <;> rename_i heq <;> rw [hread] at heq <;> cases heq
    exact if_pos rfl
  | cons byte noise ih =>
    obtain ⟨hbyte, hnoise⟩ := not_or.1 (fun hmem => hnoise (List.mem_cons.2 hmem))
    obtain ⟨link', hskip, hmore⟩ := seek_skip h (Ne.symm hbyte) skipped hpending
    obtain ⟨last, hseek, hrest⟩ := ih hnoise (skipped + 1) hmore
    refine ⟨last, ?_, hrest⟩
    rw [hskip, hseek, List.length_cons, Nat.add_right_comm, Nat.add_assoc]

/-- Noise with nothing behind it is passed over to its end. -/
theorem seek_dry (h : Faithful pending) {noise : Bytes} (hnoise : Packet.startMarker ∉ noise)
    (skipped : Nat) {link : τ} (hpending : pending link = noise) :
    ∃ link', seek skipped link = (some .dry, skipped + noise.length, link')
      ∧ pending link' = [] := by
  induction noise generalizing skipped link with
  | nil =>
    obtain ⟨hanswer, hafter⟩ := h.read_nil 1 link Nat.one_pos hpending
    have hread : read 1 link = (.error .timedOut, (read 1 link).2) := Prod.ext hanswer rfl
    refine ⟨(read 1 link).2, ?_, hafter⟩
    rw [seek.eq_def]
    split <;> rename_i heq <;> rw [hread] at heq <;> cases heq
    rfl
  | cons byte noise ih =>
    obtain ⟨hbyte, hnoise⟩ := not_or.1 (fun hmem => hnoise (List.mem_cons.2 hmem))
    obtain ⟨link', hskip, hmore⟩ := seek_skip h (Ne.symm hbyte) skipped hpending
    obtain ⟨last, hseek, hrest⟩ := ih hnoise (skipped + 1) hmore
    refine ⟨last, ?_, hrest⟩
    rw [hskip, hseek, List.length_cons, Nat.add_right_comm, Nat.add_assoc]

/-- As long as bytes are at hand, a read takes at least one of them into the frame. -/
theorem fill_step (h : Faithful pending) {frame : Bytes} {link : τ}
    (hmore : frame.length < Packet.frameSize) (hne : pending link ≠ []) :
    ∃ k link', 0 < k ∧ k ≤ Packet.frameSize - frame.length
      ∧ fill frame link = fill (frame ++ (pending link).take k) link'
      ∧ pending link' = (pending link).drop k := by
  obtain ⟨k, hpos, hle, hanswer, hafter⟩ :=
    h.read_cons (Packet.frameSize - frame.length) link (by omega) hne
  have hpending := List.length_pos_iff.2 hne
  have htake : 0 < ((pending link).take k).length := by
    rw [List.length_take]
    omega
  obtain ⟨byte, bytes, hbytes⟩ := List.exists_cons_of_length_pos htake
  refine ⟨k, (read (Packet.frameSize - frame.length) link).2, hpos, hle, ?_, hafter⟩
  rw [fill, dif_pos hmore,
    show read _ link = (.ok ((pending link).take k), (read _ link).2) from Prod.ext hanswer rfl,
    hbytes]

/-- A frame is read to its end, in however many reads. -/
theorem fill_body (h : Faithful pending) {frame body rest : Bytes} {link : τ}
    (hlength : frame.length + body.length = Packet.frameSize)
    (hpending : pending link = body ++ rest) :
    ∃ link', fill frame link = (.frame (frame ++ body), link') ∧ pending link' = rest := by
  -- By induction on what is missing of the frame: each read brings at least one byte.
  induction hn : body.length using Nat.strongRecOn generalizing frame body link with
  | ind n ih =>
    by_cases hmore : frame.length < Packet.frameSize
    · have hne : pending link ≠ [] := by
        rw [hpending]
        intro hnil
        rw [(List.append_eq_nil_iff.1 hnil).1, List.length_nil] at hlength
        omega
      obtain ⟨k, mid, hpos, hle, hstep, hafter⟩ := fill_step h hmore hne
      rw [hpending, List.take_append_of_le_length (by omega)] at hstep
      rw [hpending, List.drop_append_of_le_length (by omega)] at hafter
      have hlonger : (frame ++ body.take k).length + (body.drop k).length = Packet.frameSize := by
        rw [List.length_append, Nat.add_assoc, ← List.length_append, List.take_append_drop, hlength]
      obtain ⟨last, hfill, hrest⟩ := ih (body.drop k).length (by rw [List.length_drop]; omega)
        hlonger hafter rfl
      rw [List.append_assoc, List.take_append_drop] at hfill
      exact ⟨last, hstep.trans hfill, hrest⟩
    · have hnil : body = [] := List.length_eq_zero_iff.1 (by omega)
      rw [fill, dif_neg hmore, hnil, List.append_nil]
      exact ⟨link, rfl, by rw [hpending, hnil, List.nil_append]⟩

/-- A frame of which too little is at hand takes all of it along. -/
theorem fill_short (h : Faithful pending) {frame body : Bytes} {link : τ}
    (hshort : frame.length + body.length < Packet.frameSize) (hpending : pending link = body) :
    ∃ link', fill frame link = (.cutShort (frame.length + body.length), link')
      ∧ pending link' = [] := by
  -- By induction on what is at hand: each read takes at least one byte of it.
  induction hn : body.length using Nat.strongRecOn generalizing frame body link with
  | ind n ih =>
    have hmore : frame.length < Packet.frameSize := by omega
    by_cases hnil : body = []
    · rw [hnil] at hpending hn
      obtain ⟨hanswer, hafter⟩ :=
        h.read_nil (Packet.frameSize - frame.length) link (by omega) hpending
      rw [fill, dif_pos hmore,
        show read _ link = (.error .timedOut, (read _ link).2) from Prod.ext hanswer rfl, ← hn]
      exact ⟨_, rfl, hafter⟩
    · have hpos := List.length_pos_iff.2 hnil
      obtain ⟨k, mid, hk, -, hstep, hafter⟩ := fill_step h hmore (hpending ▸ hnil)
      rw [hpending] at hstep hafter
      have hsum : (frame ++ body.take k).length + (body.drop k).length
          = frame.length + body.length := by
        rw [List.length_append, Nat.add_assoc, ← List.length_append, List.take_append_drop]
      obtain ⟨last, hfill, hrest⟩ := ih (body.drop k).length (by rw [List.length_drop]; omega)
        (hsum ▸ hshort) hafter rfl
      rw [hsum, hn] at hfill
      exact ⟨last, hstep.trans hfill, hrest⟩

/-- A block of the length of a frame is read whole, whatever noise is in front of it. -/
theorem readFrame_block (h : Faithful pending) {noise body rest : Bytes} {link : τ}
    (hnoise : Packet.startMarker ∉ noise) (hlength : body.length + 1 = Packet.frameSize)
    (hpending : pending link = noise ++ Packet.startMarker :: body ++ rest) :
    ∃ link', readFrame link = (.frame (Packet.startMarker :: body), noise.length, link')
      ∧ pending link' = rest := by
  rw [List.append_assoc, List.cons_append] at hpending
  obtain ⟨marked, hseek, hmore⟩ := seek_noise h hnoise 0 hpending
  have hone : [Packet.startMarker].length + body.length = Packet.frameSize := by
    rw [List.length_singleton, Nat.add_comm]
    exact hlength
  obtain ⟨last, hfill, hrest⟩ := fill_body h hone hmore
  refine ⟨last, ?_, hrest⟩
  rw [readFrame, hseek, Nat.zero_add]
  simp only [hfill, List.singleton_append]

/-- A marker with too little behind it takes along all that is at hand. -/
theorem readFrame_short (h : Faithful pending) {noise body : Bytes} {link : τ}
    (hnoise : Packet.startMarker ∉ noise) (hshort : body.length + 1 < Packet.frameSize)
    (hpending : pending link = noise ++ Packet.startMarker :: body) :
    ∃ link', readFrame link = (.cutShort (body.length + 1), noise.length, link')
      ∧ pending link' = [] := by
  obtain ⟨marked, hseek, hmore⟩ := seek_noise h hnoise 0 hpending
  have hone : [Packet.startMarker].length + body.length = body.length + 1 := by
    rw [List.length_singleton, Nat.add_comm]
  obtain ⟨last, hfill, hrest⟩ := fill_short h (hone ▸ hshort) hmore
  refine ⟨last, ?_, hrest⟩
  rw [hone] at hfill
  rw [readFrame, hseek, Nat.zero_add]
  simp only [hfill]

theorem readFrame_noise (h : Faithful pending) {noise : Bytes} {link : τ}
    (hnoise : Packet.startMarker ∉ noise) (hpending : pending link = noise) :
    ∃ link', readFrame link = (.dry, noise.length, link') ∧ pending link' = [] := by
  obtain ⟨last, hseek, hrest⟩ := seek_dry h hnoise 0 hpending
  refine ⟨last, ?_, hrest⟩
  rw [readFrame, hseek, Nat.zero_add]

end Reading

/-! ## Reading from memory -/

variable {capacity : Nat} {outgoing : Bytes}

theorem read_loopback (capacity : Nat) (outgoing : Bytes) {n : Nat} (hn : 0 < n)
    {incoming : Bytes} (hne : incoming ≠ []) :
    Transport.read n (⟨capacity, incoming, outgoing⟩ : Loopback)
      = (.ok (incoming.take n), ⟨capacity, incoming.drop n, outgoing⟩) := by
  show Loopback.read n _ = _
  rw [Loopback.read, if_neg (Nat.ne_of_gt hn), if_neg]
  rwa [List.isEmpty_iff]

theorem read_loopback_nil (capacity : Nat) (outgoing : Bytes) {n : Nat} (hn : 0 < n) :
    Transport.read n (⟨capacity, [], outgoing⟩ : Loopback)
      = (.error .timedOut, ⟨capacity, [], outgoing⟩) := by
  show Loopback.read n _ = _
  rw [Loopback.read, if_neg (Nat.ne_of_gt hn)]
  rfl

theorem loopback_faithful : Faithful Loopback.incoming where
  read_nil := by
    rintro n ⟨capacity, incoming, outgoing⟩ hn hnil
    obtain rfl : incoming = [] := hnil
    rw [read_loopback_nil capacity outgoing hn]
    exact ⟨rfl, rfl⟩
  read_cons := by
    rintro n ⟨capacity, incoming, outgoing⟩ hn hne
    refine ⟨n, hn, Nat.le_refl n, ?_⟩
    rw [read_loopback capacity outgoing hn hne]
    exact ⟨rfl, rfl⟩

theorem seek_startMarker (skipped : Nat) (bytes : Bytes) :
    seek skipped (⟨capacity, Packet.startMarker :: bytes, outgoing⟩ : Loopback)
      = (none, skipped, ⟨capacity, bytes, outgoing⟩) := by
  have hread := read_loopback capacity outgoing Nat.one_pos
    (List.cons_ne_nil Packet.startMarker bytes)
  rw [List.take_one, List.drop_one] at hread
  rw [seek.eq_def]
  split <;> rename_i h <;> rw [hread] at h <;> cases h
  exact if_pos rfl

/-- A start marker and as much as makes a frame with it are read, and nothing beyond them. -/
theorem readFrame_marked {body : Bytes} (hbody : body.length = 141) (rest : Bytes) :
    readFrame (⟨capacity, Packet.startMarker :: body ++ rest, outgoing⟩ : Loopback)
      = (.frame (Packet.startMarker :: body), 0, ⟨capacity, rest, outgoing⟩) := by
  have hne : body ++ rest ≠ [] := by
    intro hnil
    rw [List.append_eq_nil_iff] at hnil
    rw [hnil.1] at hbody
    cases hbody
  have hread := read_loopback capacity outgoing (show 0 < 141 by decide) hne
  rw [List.take_left' hbody, List.drop_left' hbody] at hread
  have hfill : fill [Packet.startMarker] (⟨capacity, body ++ rest, outgoing⟩ : Loopback)
      = (.frame (Packet.startMarker :: body), ⟨capacity, rest, outgoing⟩) := by
    obtain ⟨byte, bytes, rfl⟩ := List.exists_cons_of_length_pos (show 0 < body.length by omega)
    rw [fill, dif_pos (by decide),
      show Packet.frameSize - [Packet.startMarker].length = 141 from rfl, hread]
    show fill (Packet.startMarker :: byte :: bytes) _ = _
    rw [fill, dif_neg]
    rw [List.length_cons, hbody]
    decide
  rw [readFrame, List.cons_append, seek_startMarker]
  simp only [hfill]

theorem readFrame_nil :
    readFrame (⟨capacity, [], outgoing⟩ : Loopback)
      = (.dry, 0, ⟨capacity, [], outgoing⟩) := by
  have hread := read_loopback_nil capacity outgoing Nat.one_pos
  have hseek : seek 0 (⟨capacity, [], outgoing⟩ : Loopback)
      = (some .dry, 0, ⟨capacity, [], outgoing⟩) := by
    rw [seek.eq_def]
    split <;> rename_i h <;> rw [hread] at h <;> cases h
    rfl
  rw [readFrame, hseek]

/-! ## Writing to memory -/

theorem writeAll_loopback {link : Loopback} {bytes : Bytes}
    (hroom : link.outgoing.length + bytes.length ≤ link.capacity) :
    writeAll bytes link = (.ok (), { link with outgoing := link.outgoing ++ bytes }) := by
  cases bytes with
  | nil =>
    rw [writeAll, dif_pos List.length_nil, List.append_nil]
  | cons byte bytes =>
    have hwrite : write (byte :: bytes) link
        = (.ok (bytes.length + 1), { link with outgoing := link.outgoing ++ byte :: bytes }) :=
      if_neg (Nat.not_lt.2 hroom)
    rw [writeAll, dif_neg (by rw [List.length_cons]; omega), hwrite]
    show writeAll ((byte :: bytes).drop (bytes.length + 1)) _ = _
    rw [show (byte :: bytes).drop (bytes.length + 1) = [] from List.drop_length, writeAll,
      dif_pos List.length_nil]

theorem writeEach_loopback {link : Loopback} {blocks : List Bytes}
    (hroom : link.outgoing.length + blocks.flatten.length ≤ link.capacity) :
    writeEach blocks link
      = (.ok (), { link with outgoing := link.outgoing ++ blocks.flatten }) := by
  induction blocks generalizing link with
  | nil => rw [writeEach, List.flatten_nil, List.append_nil]
  | cons block blocks ih =>
    rw [List.flatten_cons, List.length_append] at hroom
    rw [writeEach, writeAll_loopback (by omega)]
    show writeEach blocks { link with outgoing := link.outgoing ++ block } = _
    rw [ih, List.flatten_cons, List.append_assoc]
    show (link.outgoing ++ block).length + blocks.flatten.length ≤ link.capacity
    rw [List.length_append]
    omega

end Transport

namespace Endpoint

/-! ## Endpoints -/

/-- A block of the length of a frame that begins with a start marker goes to the reassembler. -/
theorem receive_marked {endpoint : Endpoint Loopback} {body rest : Bytes}
    (hbody : body.length = 141)
    (hlink : endpoint.link.incoming = Packet.startMarker :: body ++ rest) :
    endpoint.receive = ((endpoint.assembly.take (Packet.startMarker :: body)).1,
      { link := { endpoint.link with incoming := rest }
        assembly := (endpoint.assembly.take (Packet.startMarker :: body)).2
        stats := endpoint.stats.count
          (endpoint.assembly.take (Packet.startMarker :: body)).1 }) := by
  obtain ⟨⟨capacity, incoming, outgoing⟩, assembly, stats⟩ := endpoint
  subst hlink
  rw [receive, Transport.readFrame_marked hbody]
  rfl

/-- A frame at the front of the link goes to the reassembler. -/
theorem receive_toFrame {endpoint : Endpoint Loopback} {packet : Packet} {rest : Bytes}
    (hlink : endpoint.link.incoming = packet.toFrame ++ rest) :
    ∃ stats, endpoint.receive = ((endpoint.assembly.take packet.toFrame).1,
      { link := { endpoint.link with incoming := rest }
        assembly := (endpoint.assembly.take packet.toFrame).2
        stats }) := by
  obtain ⟨body, hframe⟩ : ∃ body, packet.toFrame = Packet.startMarker :: body := ⟨_, rfl⟩
  have hbody : body.length = 141 := by
    have hlength := packet.length_toFrame
    rw [hframe, List.length_cons] at hlength
    exact Nat.succ.inj hlength
  rw [hframe] at hlink ⊢
  exact ⟨_, receive_marked hbody hlink⟩

/-- Nothing comes off an empty link. -/
theorem receive_nil {endpoint : Endpoint Loopback} (hlink : endpoint.link.incoming = []) :
    ∃ stats, endpoint.receive = (.silence, { endpoint with stats }) := by
  obtain ⟨⟨capacity, incoming, outgoing⟩, assembly, stats⟩ := endpoint
  subst hlink
  rw [receive, Transport.readFrame_nil]
  exact ⟨_, rfl⟩

/-- A datagram for which there is room is sent whole. -/
theorem send_loopback {endpoint : Endpoint Loopback} {datagram : Datagram}
    (hroom : endpoint.link.outgoing.length + datagram.frames.flatten.length
      ≤ endpoint.link.capacity) :
    endpoint.send datagram = (.ok (), { endpoint with link := { endpoint.link with
      outgoing := endpoint.link.outgoing ++ datagram.frames.flatten } }) := by
  rw [send, Transport.writeEach_loopback hroom]
  rfl

end Endpoint

end Reflash
