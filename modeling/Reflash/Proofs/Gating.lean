/-
  Reflash.Proofs.Gating

  A polling loop that waits for whole frames loses nothing by it. Where the bytes in
  the ring are cut into frames depends on the bytes alone: each frame begins at the next
  start marker behind the one before, whatever it holds. So it does not matter in which
  pieces the bytes come and how often the loop runs in between; the frames are those of
  the whole stream, they go to the reassembler in the same order, and no call begins
  before a whole frame is there for it.
-/
import Reflash.Link.Gate
import Reflash.Proofs.Passage
import Reflash.Proofs.Tally

namespace Reflash

/-! ## Cutting a stream into frames -/

namespace Packet

/-- What is left when bytes ahead of the next start marker are dropped. -/
def marked (bytes : Bytes) : Bytes := bytes.dropWhile (· ≠ startMarker)

theorem length_marked_le (bytes : Bytes) : (marked bytes).length ≤ bytes.length :=
  (List.dropWhile_sublist _).length_le

/-- The blocks of the length of a frame that begin with a start marker, with noise in front of each
passed over, and what is left behind them. -/
def cut (bytes : Bytes) : List Bytes × Bytes :=
  if _h : (marked bytes).length < frameSize then ([], marked bytes)
  else
    ((marked bytes).take frameSize :: (cut ((marked bytes).drop frameSize)).1,
      (cut ((marked bytes).drop frameSize)).2)
termination_by bytes.length
decreasing_by
  all_goals
    have hmarked := length_marked_le bytes
    have hpos : 0 < frameSize := by decide
    rw [List.length_drop]
    omega

variable {bytes : Bytes}

theorem cut_eq (bytes : Bytes) :
    cut bytes = if (marked bytes).length < frameSize then ([], marked bytes)
      else ((marked bytes).take frameSize :: (cut ((marked bytes).drop frameSize)).1,
        (cut ((marked bytes).drop frameSize)).2) := by
  rw [cut]
  split <;> rfl

theorem head?_marked (h : marked bytes ≠ []) : (marked bytes).head? = some startMarker := by
  have hstops := List.head?_dropWhile_not (· ≠ startMarker) bytes
  obtain ⟨byte, rest, hbytes⟩ := List.exists_cons_of_ne_nil h
  rw [show bytes.dropWhile (· ≠ startMarker) = byte :: rest from hbytes] at hstops
  rw [hbytes]
  simpa using hstops

theorem marked_append (h : marked bytes ≠ []) (more : Bytes) :
    marked (bytes ++ more) = marked bytes ++ more := by
  rw [marked, List.dropWhile_append, if_neg]
  · rfl
  · rwa [List.isEmpty_iff]

/-- Noise in front makes no difference, whatever follows. -/
theorem marked_marked_append (bytes more : Bytes) :
    marked (marked bytes ++ more) = marked (bytes ++ more) := by
  by_cases h : marked bytes = []
  · have hnoise : (bytes.dropWhile (· ≠ startMarker)).isEmpty = true := by
      rwa [List.isEmpty_iff]
    rw [h, List.nil_append]
    show marked more = (bytes ++ more).dropWhile _
    rw [List.dropWhile_append, if_pos hnoise]
    rfl
  · obtain ⟨rest, hbytes⟩ := List.head?_eq_some_iff.1 (head?_marked h)
    rw [marked_append h, hbytes]
    simp [marked]

/-- What comes later is cut from what is left. -/
theorem cut_append (front back : Bytes) :
    cut (front ++ back) = ((cut front).1 ++ (cut ((cut front).2 ++ back)).1,
      (cut ((cut front).2 ++ back)).2) := by
  -- By induction on the frames in front; they stay where they are.
  induction front using cut.induct with
  | case1 front hshort =>
    rw [cut_eq front, if_pos hshort, cut_eq (front ++ back), ← marked_marked_append, ← cut_eq]
    rfl
  | case2 front hwhole ih =>
    have hle : frameSize ≤ (marked front).length := Nat.not_lt.1 hwhole
    have hne : marked front ≠ [] := by
      intro hnil
      rw [hnil] at hle
      exact absurd hle (by decide)
    have hlonger : ¬(marked front ++ back).length < frameSize := by
      rw [List.length_append]
      omega
    rw [cut_eq front, if_neg hwhole, cut_eq (front ++ back), marked_append hne, if_neg hlonger,
      List.take_append_of_le_length hle, List.drop_append_of_le_length hle, ih]
    rfl

/-- What is left holds no further frame. -/
theorem cut_left (bytes : Bytes) : cut (cut bytes).2 = ([], (cut bytes).2) := by
  induction bytes using cut.induct with
  | case1 bytes hshort =>
    -- What is left begins with a marker already, or is nothing.
    have hagain : marked (marked bytes) = marked bytes := by
      simpa using marked_marked_append bytes []
    have hleft : cut bytes = ([], marked bytes) := (cut_eq bytes).trans (if_pos hshort)
    rw [hleft, cut_eq, hagain, if_pos hshort]
  | case2 bytes hwhole ih =>
    rw [cut_eq bytes, if_neg hwhole]
    exact ih

end Packet

/-! ## Receipts and what is made of them -/

namespace Receipt

variable {σ : Type}

/-- Hands over what each receipt delivers. -/
def handOverAll (handler : Datagram → StateM σ (Except Fault Unit)) (receipts : List Receipt) :
    StateM σ (List Outcome) :=
  receipts.mapM fun receipt => do
    let answer ← receipt.handOver handler
    pure (receipt, answer)

theorem handOverAll_cons (handler : Datagram → StateM σ (Except Fault Unit)) (receipt : Receipt)
    (receipts : List Receipt) :
    handOverAll handler (receipt :: receipts) = (do
      let answer ← receipt.handOver handler
      let outcomes ← handOverAll handler receipts
      pure ((receipt, answer) :: outcomes)) := by
  simp only [handOverAll, List.mapM_cons, bind_assoc, pure_bind]

theorem handOverAll_append (handler : Datagram → StateM σ (Except Fault Unit))
    (front back : List Receipt) :
    handOverAll handler (front ++ back) = (do
      let outcomes ← handOverAll handler front
      let more ← handOverAll handler back
      pure (outcomes ++ more)) :=
  List.mapM_append

/-- Each receipt has its outcome. -/
theorem map_fst_handOverAll (handler : Datagram → StateM σ (Except Fault Unit))
    (receipts : List Receipt) (state : σ) :
    ((handOverAll handler receipts).run state).1.map Prod.fst = receipts := by
  induction receipts generalizing state with
  | nil => rfl
  | cons receipt receipts ih =>
    rw [handOverAll_cons]
    show receipt :: ((handOverAll handler receipts).run _).1.map Prod.fst = _
    rw [ih]

end Receipt

theorem Assembly.takeAll_framed {assembly : Assembly} {frames : List Bytes} {receipt : Receipt}
    (h : receipt ∈ (assembly.takeAll frames).1) : receipt.Framed := by
  induction frames generalizing assembly with
  | nil => cases h
  | cons frame frames ih =>
    rcases List.mem_cons.1 h with rfl | hmem
    · exact take_framed assembly frame
    · exact ih hmem

/-- Whole frames are no parts of frames and no noise. -/
theorem LinkStats.foldl_count_framed {receipts : List Receipt}
    (h : ∀ receipt ∈ receipts, receipt.Framed) (stats : LinkStats) :
    (receipts.foldl count stats).partialFrames = stats.partialFrames
      ∧ (receipts.foldl count stats).skipped = stats.skipped := by
  induction receipts generalizing stats with
  | nil => exact ⟨rfl, rfl⟩
  | cons receipt receipts ih =>
    obtain ⟨hpartial, hskipped⟩ := ih (fun _ hmem => h _ (List.mem_cons_of_mem _ hmem))
      (stats.count receipt)
    exact ⟨hpartial.trans (count_framed stats (h receipt List.mem_cons_self)).2,
      hskipped.trans (skipped_count stats receipt)⟩

namespace Endpoint

theorem ring_faithful : Transport.Faithful fun link : RingLink => link.reader.ring.queued where
  read_nil := by
    intro n link hn hnil
    show (RingReader.read n link.reader).1 = _ ∧ (RingReader.read n link.reader).2.ring.queued = []
    rw [RingReader.read_nil hn hnil]
    exact ⟨rfl, hnil⟩
  read_cons := by
    intro n link hn hne
    refine ⟨n, hn, Nat.le_refl n, ?_⟩
    show (RingReader.read n link.reader).1 = _ ∧ (RingReader.read n link.reader).2.ring.queued = _
    rw [RingReader.read_queued hn hne]
    exact ⟨rfl, rfl⟩

variable {σ : Type} {endpoint : Endpoint RingLink}

/-- What begins with a marker and has the length of a frame goes to the reassembler whole. -/
theorem receive_ring (endpoint : Endpoint RingLink) {frame rest : Bytes}
    (hlength : frame.length = Packet.frameSize)
    (hhead : frame.head? = some Packet.startMarker)
    (hqueued : endpoint.queued = frame ++ rest) :
    ∃ link, endpoint.receive = ((endpoint.assembly.take frame).1,
        { link, assembly := (endpoint.assembly.take frame).2
          stats := endpoint.stats.count (endpoint.assembly.take frame).1 })
      ∧ link.reader.ring.queued = rest := by
  obtain ⟨body, rfl⟩ := List.head?_eq_some_iff.1 hhead
  have hquiet : Packet.startMarker ∉ ([] : Bytes) := List.not_mem_nil
  obtain ⟨link, hread, hrest⟩ :=
    Transport.readFrame_block ring_faithful hquiet hlength hqueued
  refine ⟨link, ?_, hrest⟩
  rw [receive, hread]
  rfl

/-- The loop takes the frames of what is queued one after the other, and leaves the rest. -/
theorem serve_eq (handler : Datagram → StateM σ (Except Fault Unit))
    (endpoint : Endpoint RingLink) :
    ∃ receipts last,
      serve handler endpoint = (do
        let outcomes ← Receipt.handOverAll handler receipts
        pure (outcomes, last))
      ∧ endpoint.assembly.takeAll (Packet.cut endpoint.queued).1 = (receipts, last.assembly)
      ∧ last.queued = (Packet.cut endpoint.queued).2
      ∧ last.stats = receipts.foldl LinkStats.count endpoint.stats := by
  induction endpoint using serve.induct with
  | case1 endpoint hshort =>
    refine ⟨[], endpoint.dropNoise, ?_, ?_⟩
    · rw [serve, dif_pos hshort]
      rfl
    · rw [queued_dropNoise] at hshort
      rw [(Packet.cut_eq endpoint.queued).trans (if_pos hshort)]
      exact ⟨rfl, queued_dropNoise endpoint, rfl⟩
  | case2 endpoint hwhole ih =>
    -- Behind the noise the ring begins with a marker and holds a frame or more.
    have hqueued : endpoint.dropNoise.queued = Packet.marked endpoint.queued :=
      queued_dropNoise endpoint
    rw [hqueued] at hwhole
    have hlength : ((Packet.marked endpoint.queued).take Packet.frameSize).length
        = Packet.frameSize :=
      List.length_take_of_le (Nat.not_lt.1 hwhole)
    have hhead : ((Packet.marked endpoint.queued).take Packet.frameSize).head?
        = some Packet.startMarker := by
      rw [List.head?_take, if_neg (by decide)]
      apply Packet.head?_marked
      intro hnil
      rw [hnil] at hwhole
      exact hwhole (by decide)
    obtain ⟨link, hreceive, hrest⟩ := receive_ring endpoint.dropNoise hlength hhead
      (hqueued.trans (List.take_append_drop _ _).symm)
    have hnext : endpoint.dropNoise.receive.2.queued
        = (Packet.marked endpoint.queued).drop Packet.frameSize := by
      rw [hreceive]
      exact hrest
    rw [hnext, hreceive] at ih
    obtain ⟨receipts, last, hserve, htaken, hleft, hstats⟩ := ih
    -- The frame at the front is taken first, then what the loop takes behind it.
    refine ⟨endpoint.dropNoise.receive.1 :: receipts, last, ?_, ?_⟩
    · rw [serve, dif_neg (hqueued ▸ hwhole), hreceive, hserve]
      simp only [Receipt.handOverAll_cons, bind_assoc, pure_bind]
    · rw [(Packet.cut_eq endpoint.queued).trans (if_neg hwhole), hreceive]
      refine ⟨?_, hleft, hstats⟩
      exact congrArg (Prod.map (_ :: ·) id) htaken

/-- A piece that goes in whole is queued behind what waits. -/
theorem queued_pushAll {piece : Bytes}
    (h : (endpoint.link.reader.ring.pushAll piece).1 = .ok ()) :
    (endpoint.withRing (endpoint.link.reader.ring.pushAll piece).2).queued
      = endpoint.queued ++ piece := by
  rw [Ring.pushAll_eq] at h ⊢
  by_cases hroom : piece.length ≤ endpoint.link.reader.ring.freeSpace
  · rw [List.take_of_length_le hroom]
    rfl
  · rw [if_neg hroom] at h
    cases h

/-- If every piece finds room, the frames taken are those of the stream the pieces were cut from. -/
theorem serveEach_eq (handler : Datagram → StateM σ (Except Fault Unit)) (pieces : List Bytes)
    (endpoint : Endpoint RingLink)
    (hidle : Packet.cut endpoint.queued = ([], endpoint.queued)) :
    ∃ pushes receipts last,
      serveEach handler pieces endpoint = (do
        let outcomes ← Receipt.handOverAll handler receipts
        pure ⟨pushes, outcomes, last⟩)
      ∧ ((∀ pushed ∈ pushes, pushed = .ok ()) →
        endpoint.assembly.takeAll (Packet.cut (endpoint.queued ++ pieces.flatten)).1
            = (receipts, last.assembly)
          ∧ last.queued = (Packet.cut (endpoint.queued ++ pieces.flatten)).2
          ∧ last.stats = receipts.foldl LinkStats.count endpoint.stats) := by
  -- By induction on the pieces; after each the loop leaves no whole frame behind.
  induction pieces generalizing endpoint with
  | nil =>
    refine ⟨[], [], endpoint, rfl, fun _ => ?_⟩
    rw [List.flatten_nil, List.append_nil, hidle]
    exact ⟨rfl, rfl, rfl⟩
  | cons piece pieces ih =>
    obtain ⟨front, next, hserve, htaken, hleft, hstats⟩ :=
      serve_eq handler (endpoint.withRing (endpoint.link.reader.ring.pushAll piece).2)
    obtain ⟨pushes, back, last, hrest, hend⟩ := ih next (hleft ▸ Packet.cut_left _)
    refine ⟨(endpoint.link.reader.ring.pushAll piece).1 :: pushes, front ++ back, last, ?_,
      fun hpushes => ?_⟩
    · simp only [serveEach, hserve, hrest, Receipt.handOverAll_append, bind_assoc, pure_bind]
    · rw [assembly_withRing] at htaken
      rw [stats_withRing] at hstats
      rw [queued_pushAll (hpushes _ List.mem_cons_self)] at htaken hleft
      obtain ⟨hback, hlast, hcount⟩ := hend fun pushed hmem =>
        hpushes pushed (List.mem_cons_of_mem _ hmem)
      -- The frames of the stream are those taken already and those cut from what is left.
      rw [hleft] at hback hlast
      rw [List.flatten_cons, ← List.append_assoc, Packet.cut_append, Assembly.takeAll_append,
        htaken, hback, List.foldl_append, ← hstats]
      exact ⟨rfl, hlast, hcount⟩

/-- A polling loop that waits for whole frames loses nothing by it. In whichever pieces a stream
comes, if each finds room: calls and their outcomes, what the handler is given and makes of it, the
datagram under way at the end and the bytes left over are those of one run with the whole stream in
a ring that is large enough. No call finds less than a frame, and none passes over a byte. -/
theorem gate_loses_nothing (handler : Datagram → StateM σ (Except Fault Unit)) (state : σ)
    (device : Endpoint RingLink) (pieces : List Bytes) (roomy : RingLink)
    (hdevice : device.queued = []) (hroomy : roomy.reader.ring.queued = [])
    (hcapacity : pieces.flatten.length ≤ roomy.reader.ring.capacity)
    (hpushes : ∀ pushed ∈ ((serveEach handler pieces device).run state).1.pushes,
      pushed = .ok ()) :
    let pieced := (serveEach handler pieces device).run state
    let whole := (serveEach handler [pieces.flatten] { device with link := roomy }).run state
    whole.1.pushes = [.ok ()]
      ∧ whole.1.outcomes = pieced.1.outcomes ∧ whole.2 = pieced.2
      ∧ whole.1.endpoint.assembly = pieced.1.endpoint.assembly
      ∧ whole.1.endpoint.queued = pieced.1.endpoint.queued
      ∧ whole.1.endpoint.stats = pieced.1.endpoint.stats
      ∧ (∀ outcome ∈ pieced.1.outcomes, outcome.1.isIdle = false)
      ∧ pieced.1.endpoint.stats.partialFrames = device.stats.partialFrames
      ∧ pieced.1.endpoint.stats.skipped = device.stats.skipped := by
  have hnone : Packet.cut [] = ([], []) := Packet.cut_eq []
  obtain ⟨pushes, receipts, last, hpieced, hend⟩ :=
    serveEach_eq handler pieces device (by rw [hdevice, hnone])
  obtain ⟨pushed, received, final, hwhole, hrun⟩ :=
    serveEach_eq handler [pieces.flatten] { device with link := roomy }
      (by rw [queued, hroomy, hnone])
  -- There is room for the whole stream at once.
  have hpushed : pushed = [.ok ()] := by
    have hroom : pieces.flatten.length ≤ roomy.reader.ring.freeSpace := by
      rwa [Ring.freeSpace, hroomy]
    have hfits : ((serveEach handler [pieces.flatten]
        { device with link := roomy }).run state).1.pushes = [.ok ()] := by
      show [(roomy.reader.ring.pushAll pieces.flatten).1] = _
      rw [Ring.pushAll_eq, if_pos hroom]
    rw [hwhole] at hfits
    exact hfits
  rw [hpieced] at hpushes ⊢
  rw [hwhole]
  obtain ⟨htaken, hleft, hstats⟩ := hend hpushes
  obtain ⟨hreceived, hrest, hcounted⟩ := hrun (by simp [hpushed])
  rw [hdevice, List.nil_append] at htaken hleft
  rw [show queued { device with link := roomy } = [] from hroomy, List.nil_append,
    List.flatten_singleton] at hreceived hrest
  -- Both runs take the frames of the same stream.
  obtain ⟨rfl, hassembly⟩ := Prod.mk.inj (hreceived.symm.trans htaken)
  have hframed : ∀ receipt ∈ received, receipt.Framed := by
    intro receipt hmem
    have hreceipts : (device.assembly.takeAll (Packet.cut pieces.flatten).1).1 = received := by
      rw [htaken]
    rw [← hreceipts] at hmem
    exact Assembly.takeAll_framed hmem
  have hcount := LinkStats.foldl_count_framed hframed device.stats
  rw [← hstats] at hcount
  refine ⟨hpushed, rfl, rfl, hassembly, hrest.trans hleft.symm, hcounted.trans hstats.symm, ?_,
    hcount.1, hcount.2⟩
  intro outcome hmem
  have hreceipt : outcome.1 ∈ received := by
    rw [← Receipt.map_fst_handOverAll handler received state]
    exact List.mem_map_of_mem hmem
  exact (hframed _ hreceipt).isIdle_eq

/-- Two bytes of noise and a datagram of two frames, cut inside of both frames. -/
def torn : List Bytes :=
  let stream := [1, 2] ++ shorter.frames.flatten
  [stream.take 100, (stream.drop 100).take 150, stream.drop 250]

/-- A link with a ring of `size` places. -/
def ringLink (size : Nat) : RingLink where
  reader := { ring := { size } }
  writer := { capacity := 0 }

/-- Keeps the datagrams it is given. -/
def collect (datagram : Datagram) : StateM (List Datagram) (Except Fault Unit) := do
  modify (· ++ [datagram])
  pure (.ok ())

/-- An endpoint whose ring has 256 places. -/
def narrow : Endpoint RingLink where
  link := ringLink 256

/-- The pieces find room one after the other in a ring that is too small for the stream. -/
theorem gate_loses_nothing_torn :
    torn.flatten.length = 286
      ∧ (∀ pushed ∈ ((serveEach collect torn narrow).run []).1.pushes, pushed = .ok ())
      ∧ ((serveEach collect torn narrow).run []).2 = [shorter]
      ∧ ((serveEach collect [torn.flatten] { narrow with link := ringLink 287 }).run []).2
        = [shorter] := by
  have hlength : torn.flatten.length = 286 := by decide +kernel
  have hpushes : ∀ pushed ∈ ((serveEach collect torn narrow).run []).1.pushes,
      pushed = .ok () := by decide +kernel
  have hcollected : ((serveEach collect torn narrow).run []).2 = [shorter] := by decide +kernel
  obtain ⟨-, -, hstate, -⟩ := gate_loses_nothing collect [] narrow torn (ringLink 287) rfl rfl
    (Nat.le_of_eq hlength) hpushes
  exact ⟨hlength, hpushes, hcollected, hstate.trans hcollected⟩

end Endpoint

end Reflash
