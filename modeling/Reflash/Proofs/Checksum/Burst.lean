/-
  Reflash.Proofs.Checksum.Burst

  Errors that a checksum never misses. Octet strings of one length have the same
  checksum exactly when the generator divides the difference of their polynomials. A
  change of four consecutive bytes is too short for that, wherever it is: the generator
  has no factor in common with a power of `X`, and is of a higher degree than what is
  left of the difference. So neither a packet nor a datagram passes with such a change
  in its payload.
-/
import Reflash.Datagram.Assembly
import Reflash.Proofs.Checksum
import Reflash.Proofs.Checksum.Remainder
import Reflash.Proofs.Codec

namespace Reflash

/-! ## Undetected changes -/

namespace Crc32

open Polynomial

theorem generator_coprime_X_pow (n : Nat) : IsCoprime generator (X ^ n : (ZMod 2)[X]) := by
  refine IsCoprime.pow_right ⟨1, -(X ^ 31 + X ^ 25 + X ^ 22 + X ^ 21 + X ^ 15 + X ^ 11 + X ^ 10
    + X ^ 9 + X ^ 7 + X ^ 6 + X ^ 4 + X ^ 3 + X + 1), ?_⟩
  rw [generator]
  ring

/-- A change goes unnoticed exactly when it is a multiple of the generator. -/
theorem ofBytes_eq_iff {a b : Bytes} (hlength : a.length = b.length) : ofBytes a = ofBytes b
    ↔ generator ∣ poly (bitsOfBytes a) - poly (bitsOfBytes b) := by
  have hregister : ofBytes a = ofBytes b
      ↔ residue (absorbAll start a) = residue (absorbAll start b) := by
    refine ⟨fun h => ?_, fun h => congrArg (~~~·) (residue_injective h)⟩
    exact congrArg residue (UInt32.not_inj.1 h)
  -- The registers differ by the remainder that the difference of the messages leaves.
  have hdifference : X ^ (8 * a.length) * residue start + X ^ 32 * poly (bitsOfBytes a)
        - (X ^ (8 * b.length) * residue start + X ^ 32 * poly (bitsOfBytes b))
      = X ^ 32 * (poly (bitsOfBytes a) - poly (bitsOfBytes b)) := by
    rw [hlength]
    ring
  rw [hregister, residue_absorbAll, residue_absorbAll, ← sub_eq_zero, ← sub_modByMonic,
    modByMonic_eq_zero_iff_dvd monic_generator, hdifference]
  exact ⟨(generator_coprime_X_pow 32).dvd_of_dvd_mul_left, fun h => h.mul_left _⟩

/-- Up to four bytes in the middle cannot be changed without changing the checksum. -/
theorem ofBytes_ne {front a b back : Bytes} (hlength : a.length = b.length) (hshort : a.length ≤ 4)
    (hne : a ≠ b) : ofBytes (front ++ a ++ back) ≠ ofBytes (front ++ b ++ back) := by
  intro hsame
  have hdifference : poly (bitsOfBytes (front ++ a ++ back))
        - poly (bitsOfBytes (front ++ b ++ back))
      = X ^ (8 * back.length) * (poly (bitsOfBytes a) - poly (bitsOfBytes b)) := by
    simp only [bitsOfBytes_append, poly_append, length_bitsOfBytes, hlength]
    ring
  rw [ofBytes_eq_iff (by simp [hlength]), hdifference] at hsame
  have hdvd := (generator_coprime_X_pow _).dvd_of_dvd_mul_left hsame
  -- What the generator divides is of a lower degree.
  have hdegree : (poly (bitsOfBytes a) - poly (bitsOfBytes b)).degree < generator.degree := by
    have hlow : ∀ bytes : Bytes, bytes.length ≤ 4 →
        (poly (bitsOfBytes bytes)).degree < generator.degree := by
      intro bytes hfew
      refine (degree_poly_lt _).trans_le ?_
      rw [degree_generator, length_bitsOfBytes]
      exact_mod_cast Nat.mul_le_mul_left 8 hfew
    exact (degree_sub_le _ _).trans_lt (max_lt (hlow a hshort) (hlow b (hlength ▸ hshort)))
  have hzero : poly (bitsOfBytes a) = poly (bitsOfBytes b) := by
    by_contra hother
    exact monic_generator.not_dvd_of_degree_lt (sub_ne_zero.2 hother) hdegree hdvd
  exact hne (bitsOfBytes_injective hlength (poly_injective
    (by rw [length_bitsOfBytes, length_bitsOfBytes, hlength]) hzero))

end Crc32

/-! ## Bursts -/

/-- `after` is `before` with something changed, all of it in four consecutive places and among the
first `n`. -/
structure Bytes.Burst (n : Nat) (before after : Bytes) : Prop where
  length_eq : after.length = before.length
  ne : after ≠ before
  confined : ∃ k, ∀ i, after[i]? ≠ before[i]? → k ≤ i ∧ i < k + 4 ∧ i < n

namespace Bytes.Burst

variable {n : Nat} {before after : Bytes}

/-- What is changed is changed among the first `n`. -/
theorem take (h : Burst n before after) : Burst n (before.take n) (after.take n) where
  length_eq := by rw [List.length_take, List.length_take, h.length_eq]
  ne := by
    intro hsame
    obtain ⟨k, hconfined⟩ := h.confined
    refine h.ne (List.ext_getElem? fun i => Classical.byContradiction fun hi => ?_)
    have hi' := congrArg (·[i]?) hsame
    simp only [List.getElem?_take, if_pos (hconfined i hi).2.2] at hi'
    exact hi hi'
  confined := by
    obtain ⟨k, hconfined⟩ := h.confined
    refine ⟨k, fun i hi => hconfined i fun hsame => hi ?_⟩
    rw [List.getElem?_take, List.getElem?_take, hsame]

/-- In front of the change and behind it everything is as it was. -/
theorem split (h : Burst n before after) : ∃ front a b back, a.length = b.length ∧ a.length ≤ 4
    ∧ a ≠ b ∧ after = front ++ a ++ back ∧ before = front ++ b ++ back := by
  obtain ⟨k, hconfined⟩ := h.confined
  have hparts : ∀ bytes : Bytes,
      bytes = bytes.take k ++ (bytes.drop k).take 4 ++ bytes.drop (k + 4) := fun bytes => by
    rw [List.append_assoc, ← List.drop_drop, List.take_append_drop, List.take_append_drop]
  have hfront : after.take k = before.take k := by
    refine List.ext_getElem? fun i => ?_
    rw [List.getElem?_take, List.getElem?_take]
    split
    next hlt => exact Classical.byContradiction fun hi => absurd (hconfined i hi).1 (by omega)
    next => rfl
  have hback : after.drop (k + 4) = before.drop (k + 4) := by
    refine List.ext_getElem? fun i => ?_
    rw [List.getElem?_drop, List.getElem?_drop]
    exact Classical.byContradiction fun hi => absurd (hconfined _ hi).2.1 (by omega)
  have hafter := hparts after
  rw [hfront, hback] at hafter
  refine ⟨_, _, _, _, ?_, List.length_take_le _ _, fun hsame => h.ne ?_, hafter, hparts before⟩
  · rw [List.length_take, List.length_take, List.length_drop, List.length_drop, h.length_eq]
  · rw [hafter, hsame]
    exact (hparts before).symm

/-- Up to four bytes among the first `n` that are not what they were. -/
theorem of_parts {front a b back : Bytes} (hlength : a.length = b.length) (hshort : a.length ≤ 4)
    (hne : a ≠ b) (hn : front.length + a.length ≤ n) :
    Burst n (front ++ b ++ back) (front ++ a ++ back) where
  length_eq := by simp [hlength]
  ne hsame := hne (List.append_cancel_left (List.append_cancel_right hsame))
  confined := by
    refine ⟨front.length, fun i hi => ?_⟩
    rw [List.append_assoc, List.append_assoc] at hi
    simp only [List.getElem?_append, hlength] at hi
    split at hi
    · exact absurd rfl hi
    · split at hi
      · omega
      · exact absurd rfl hi

end Bytes.Burst

namespace Crc32

variable {n : Nat} {before after : Bytes}

/-- A burst is noticed whatever follows. -/
theorem ofBytes_append_ne (h : Bytes.Burst n before after) (tail : Bytes) :
    ofBytes (after ++ tail) ≠ ofBytes (before ++ tail) := by
  obtain ⟨front, a, b, back, hlength, hshort, hne, rfl, rfl⟩ := h.split
  rw [List.append_assoc, List.append_assoc _ back]
  exact ofBytes_ne hlength hshort hne

theorem padded_ne (h : Bytes.Burst n before after) : padded after ≠ padded before := by
  rw [padded_eq, padded_eq, h.length_eq]
  exact ofBytes_append_ne h _

/-- A burst in the words is noticed. -/
theorem ofWords_ne {count : Nat} (h : Bytes.Burst (4 * count) before after) :
    ofWords after count ≠ ofWords before count := by
  rw [ofWords_eq, ofWords_eq, Bytes.padTo, Bytes.padTo, h.length_eq]
  exact ofBytes_append_ne h.take _

/-- Behind the words nothing is looked at. -/
theorem ofWords_congr {count : Nat} (hlength : after.length = before.length)
    (h : ∀ i < 4 * count, after[i]? = before[i]?) : ofWords after count = ofWords before count := by
  have hfront : after.take (4 * count) = before.take (4 * count) := by
    refine List.ext_getElem? fun i => ?_
    rw [List.getElem?_take, List.getElem?_take]
    split
    next hlt => exact h i hlt
    next => rfl
  rw [ofWords_eq, ofWords_eq, Bytes.padTo, Bytes.padTo, hlength, hfront]

end Crc32

/-! ## Packets and datagrams -/

/-- The packet with other bytes in its payload area, and everything else as it was. -/
def Packet.withPayload (packet : Packet) (payload : Bytes) (h : payload.length = 128) : Packet :=
  { packet with payload, payload_length := h }

/-- A packet passes as long as the words of its payload have the checksum that it was sealed
with. -/
theorem Packet.verify_withPayload (packet : Packet) {payload : Bytes} (h : payload.length = 128) :
    (packet.sealed.withPayload payload h).verify
      = if Crc32.ofWords payload (Crc32.wordsFor packet.length.toNat)
          = Crc32.ofWords packet.payload (Crc32.wordsFor packet.length.toNat)
        then .ok () else .error .crcMismatch :=
  rfl

theorem Assembly.verify_complete {datagram : Datagram}
    (h : isComplete (some datagram) = true) :
    verify (some datagram) = if Crc32.padded datagram.data = datagram.header.crc then .ok ()
      else .error .crcMismatch := by
  rw [verify, h]
  rfl

/-- A change of four consecutive bytes is always noticed: in the words that a packet uses of its
payload area, whatever length it announces, and in the data of a datagram as it was made. What is
changed in the payload area behind those words is never noticed. -/
theorem burst_detected :
    (∀ (packet : Packet) (payload : Bytes) (hsize : payload.length = 128),
      (Bytes.Burst (4 * ((packet.length.toNat + 3) / 4)) packet.payload payload →
        (packet.sealed.withPayload payload hsize).verify = .error .crcMismatch)
      ∧ ((∀ i < 4 * ((packet.length.toNat + 3) / 4), payload[i]? = packet.payload[i]?) →
        (packet.sealed.withPayload payload hsize).verify = .ok ()))
    ∧ ∀ (kind : Datagram.Kind) (id : UInt32) (target : Option UInt8) (data : Bytes)
      (whole : Datagram), Datagram.compose kind id target data = .ok whole →
        Assembly.verify (some whole) = .ok ()
        ∧ ∀ changed : Datagram, changed.header = whole.header →
          Assembly.isComplete (some changed) = true →
          Bytes.Burst whole.header.total.toNat whole.data changed.data →
            Assembly.verify (some changed) = .error .crcMismatch := by
  refine ⟨fun packet payload hsize => ⟨fun hburst => ?_, fun hsame => ?_⟩, ?_⟩
  · rw [packet.verify_withPayload hsize]
    exact if_neg (Crc32.ofWords_ne hburst)
  · rw [packet.verify_withPayload hsize]
    exact if_pos (Crc32.ofWords_congr (hsize.trans packet.payload_length.symm) hsame)
  · intro kind id target data whole hwhole
    rw [Datagram.compose] at hwhole
    split at hwhole
    next => cases hwhole
    next hfits =>
      cases hwhole
      have hdata := Datagram.data_pack kind id target (Nat.le_of_not_lt hfits)
      have hfull : Assembly.isComplete (some (.pack kind id target data)) = true := by
        simp [Assembly.isComplete, Datagram.pack]
      refine ⟨?_, fun changed hheader hcomplete hburst => ?_⟩
      · rw [Assembly.verify_complete hfull, hdata]
        exact if_pos rfl
      · rw [hdata] at hburst
        rw [Assembly.verify_complete hcomplete, hheader]
        exact if_neg (Crc32.padded_ne hburst)

/-- A packet of five bytes, of which two words are looked at. -/
def Packet.five : Packet :=
  blank.carrying [1, 2, 3, 4, 5]

/-- A datagram of two hundred bytes in two packets, changed where they meet. -/
def Datagram.torn : Datagram :=
  { pack .firmwareChunk 7 none (List.replicate 200 1) with
    slots := [some (List.replicate 126 1 ++ [0, 2]), some ([1, 3] ++ List.replicate 70 1)] }

/-- The zeros behind a packet's five bytes are looked at up to the end of the second word, and a
datagram is looked at across the border of its packets. -/
theorem burst_detected_across :
    (Packet.five.sealed.withPayload ([1, 2, 3, 4] ++ [5, 0, 0, 9] ++ List.replicate 120 0)
        (by simp)).verify = .error .crcMismatch
      ∧ (Packet.five.sealed.withPayload ([1, 2, 3, 4, 5, 0, 0, 0] ++ List.replicate 120 0xFF)
        (by simp)).verify = .ok ()
      ∧ ∃ whole, Datagram.compose .firmwareChunk 7 none (List.replicate 200 1) = .ok whole
        ∧ Assembly.verify (some whole) = .ok ()
        ∧ Assembly.verify (some Datagram.torn) = .error .crcMismatch := by
  have hburst : Bytes.Burst 8 Packet.five.payload
      ([1, 2, 3, 4] ++ [5, 0, 0, 9] ++ List.replicate 120 0) := by
    have hpayload : Packet.five.payload = [1, 2, 3, 4] ++ [5, 0, 0, 0] ++ List.replicate 120 0 := by
      decide +kernel
    rw [hpayload]
    exact .of_parts rfl (by decide) (by decide) (by decide)
  have hbehind : ∀ i < 8, ([1, 2, 3, 4, 5, 0, 0, 0] ++ List.replicate 120 0xFF : Bytes)[i]?
      = Packet.five.payload[i]? := by decide +kernel
  have hcompose : Datagram.compose .firmwareChunk 7 none (List.replicate 200 1)
      = .ok (.pack .firmwareChunk 7 none (List.replicate 200 1)) := by
    rw [Datagram.compose, List.length_replicate]
    exact if_neg (by decide)
  obtain ⟨hpass, hchanged⟩ := burst_detected.2 .firmwareChunk 7 none _ _ hcompose
  have hparts : (Datagram.pack .firmwareChunk 7 none (List.replicate 200 1)).data
      = List.replicate 126 1 ++ [1, 1, 1, 1] ++ List.replicate 70 1 := by decide +kernel
  have htorn : Datagram.torn.data
      = List.replicate 126 1 ++ [0, 2, 1, 3] ++ List.replicate 70 1 := by decide +kernel
  refine ⟨(burst_detected.1 Packet.five _ _).1 hburst,
    (burst_detected.1 Packet.five _ _).2 hbehind, _, hcompose, hpass,
    hchanged _ rfl (by decide) ?_⟩
  rw [hparts, htorn]
  exact .of_parts rfl (by decide) (by decide) (by decide +kernel)

end Reflash
