/-
  Reflash.Proofs.Checksum.Remainder

  What the shift register computes. Bits that are sent one after the other are the
  coefficients of a polynomial over the field of two elements, the first for the
  highest power. Shifting a bit out multiplies the register by `X` and takes the
  generator off when it comes out too large; so what a run of bytes leaves in the
  register is the remainder of a division. This is what the checksum is defined as,
  and at most one checksum meets the definition.
-/
import Mathlib.RingTheory.AdjoinRoot
import Mathlib.Algebra.Field.ZMod
import Reflash.Checksum.Crc32

namespace Reflash

namespace Crc32

open Polynomial

/-! ## Bits -/

/-- The lowest `width` bits of a number in the order in which they are sent, lowest first. -/
def bits (width n : Nat) : List Bool :=
  (List.range width).map n.testBit

/-- The bits of an octet string in the order in which they are sent. -/
def bitsOfBytes (bytes : Bytes) : List Bool :=
  bytes.flatMap fun byte => bits 8 byte.toNat

@[simp] theorem length_bits (width n : Nat) : (bits width n).length = width := by
  rw [bits, List.length_map, List.length_range]

theorem bits_succ (width n : Nat) : bits (width + 1) n = n.testBit 0 :: bits width (n >>> 1) := by
  rw [bits, List.range_succ_eq_map, List.map_cons, List.map_map]
  refine congrArg _ (List.map_congr_left fun i _ => ?_)
  rw [Nat.testBit_shiftRight, Nat.add_comm]
  rfl

theorem bits_succ_last (width n : Nat) :
    bits (width + 1) n = bits width n ++ [n.testBit width] := by
  rw [bits, List.range_succ, List.map_append]
  rfl

/-- Above its highest bit a number has none. -/
theorem bits_add {width n : Nat} (h : n < 2 ^ width) (more : Nat) :
    bits (width + more) n = bits width n ++ List.replicate more false := by
  induction more with
  | zero => rw [List.replicate_zero, List.append_nil, Nat.add_zero]
  | succ more ih =>
    have hhigh : n.testBit (width + more) = false :=
      Nat.testBit_lt_two_pow (Nat.lt_of_lt_of_le h (Nat.pow_le_pow_right (by decide) (by omega)))
    rw [← Nat.add_assoc, bits_succ_last, ih, hhigh, List.append_assoc, ← List.replicate_succ']

/-- Numbers with the same bits are the same. -/
theorem bits_injective {width m n : Nat} (hm : m < 2 ^ width) (hn : n < 2 ^ width)
    (h : bits width m = bits width n) : m = n := by
  refine Nat.eq_of_testBit_eq fun i => ?_
  by_cases hi : i < width
  · have := congrArg (·[i]?) h
    simpa [bits, hi] using this
  · have hpow : 2 ^ width ≤ 2 ^ i := Nat.pow_le_pow_right (by decide) (by omega)
    rw [Nat.testBit_lt_two_pow (by omega), Nat.testBit_lt_two_pow (by omega)]

theorem length_bitsOfBytes (bytes : Bytes) : (bitsOfBytes bytes).length = 8 * bytes.length := by
  simp [bitsOfBytes, Nat.mul_comm]

theorem bitsOfBytes_append (a b : Bytes) :
    bitsOfBytes (a ++ b) = bitsOfBytes a ++ bitsOfBytes b :=
  List.flatMap_append

/-- Octet strings with the same bits are the same. -/
theorem bitsOfBytes_injective {a b : Bytes} (hlength : a.length = b.length)
    (h : bitsOfBytes a = bitsOfBytes b) : a = b := by
  induction a generalizing b with
  | nil => exact (List.length_eq_zero_iff.1 hlength.symm).symm
  | cons byte a ih =>
    cases b with
    | nil => cases hlength
    | cons byte' b =>
      obtain ⟨hfirst, hrest⟩ := List.append_inj
        (show bits 8 byte.toNat ++ bitsOfBytes a = bits 8 byte'.toNat ++ bitsOfBytes b from h)
        (by rw [length_bits, length_bits])
      have hbyte : byte = byte' :=
        UInt8.toNat_inj.1 (bits_injective byte.toNat_lt byte'.toNat_lt hfirst)
      rw [hbyte, ih (Nat.succ.inj hlength) hrest]

/-! ## Polynomials -/

/-- The polynomial with the given bits as coefficients, the first bit for the highest power. -/
noncomputable def poly : List Bool → (ZMod 2)[X]
  | [] => 0
  | bit :: rest => (if bit then X ^ rest.length else 0) + poly rest

theorem poly_append (a b : List Bool) : poly (a ++ b) = X ^ b.length * poly a + poly b := by
  induction a with
  | nil => simp [poly]
  | cons bit a ih =>
    rw [List.cons_append, poly, ih, poly, List.length_append]
    split <;> ring

theorem poly_replicate_false (n : Nat) : poly (List.replicate n false) = 0 := by
  induction n with
  | zero => rfl
  | succ n ih => rw [List.replicate_succ, poly, ih, if_neg Bool.false_ne_true, add_zero]

/-- Exclusive or of bits is addition of polynomials. -/
theorem poly_map_xor {α : Type} (f g : α → Bool) (items : List α) :
    poly (items.map fun i => f i ^^ g i) = poly (items.map f) + poly (items.map g) := by
  induction items with
  | nil => rw [List.map_nil, List.map_nil, List.map_nil, poly, add_zero]
  | cons i items ih =>
    have hbit : (if f i ^^ g i then X ^ items.length else 0 : (ZMod 2)[X])
        = (if f i then X ^ items.length else 0) + if g i then X ^ items.length else 0 := by
      cases f i <;> cases g i <;> simp [CharTwo.add_self_eq_zero]
    simp only [List.map_cons, poly, List.length_map, ih, hbit]
    ring

theorem degree_poly_lt (a : List Bool) : (poly a).degree < a.length := by
  induction a with
  | nil => simp [poly]
  | cons bit a ih =>
    have hrest : (poly a).degree < (a.length + 1 : Nat) :=
      ih.trans (by exact_mod_cast Nat.lt_succ_self _)
    rw [poly, List.length_cons]
    refine (degree_add_le _ _).trans_lt (max_lt ?_ hrest)
    split
    · rw [degree_X_pow]
      exact_mod_cast Nat.lt_succ_self _
    · rw [degree_zero]
      exact WithBot.bot_lt_coe _

theorem coeff_poly_length (bit : Bool) (a : List Bool) :
    (poly (bit :: a)).coeff a.length = if bit then 1 else 0 := by
  rw [poly, coeff_add, coeff_eq_zero_of_degree_lt (degree_poly_lt a), add_zero]
  split
  · exact coeff_X_pow_self _
  · exact coeff_zero _

/-- As many bits with the same polynomial are the same. -/
theorem poly_injective {a b : List Bool} (hlength : a.length = b.length) (h : poly a = poly b) :
    a = b := by
  -- From the highest power down: its coefficient tells the first bit, which can then be taken off.
  induction a generalizing b with
  | nil => exact (List.length_eq_zero_iff.1 hlength.symm).symm
  | cons bit a ih =>
    cases b with
    | nil => cases hlength
    | cons bit' b =>
      have hlength' : a.length = b.length := Nat.succ.inj hlength
      have hfirst : bit = bit' := by
        have hcoeff := congrArg (coeff · a.length) h
        simp only [coeff_poly_length] at hcoeff
        rw [hlength', coeff_poly_length] at hcoeff
        cases bit <;> cases bit' <;> simp at hcoeff ⊢
      subst hfirst
      rw [poly, poly, hlength'] at h
      rw [ih hlength' (add_left_cancel h)]

/-! ## The generator -/

/-- The polynomial that checksums are taken by. -/
noncomputable def generator : (ZMod 2)[X] :=
  X ^ 32 + X ^ 26 + X ^ 23 + X ^ 22 + X ^ 16 + X ^ 12 + X ^ 11 + X ^ 10 + X ^ 8 + X ^ 7
    + X ^ 5 + X ^ 4 + X ^ 2 + X + 1

/-- The polynomial of a register. -/
noncomputable def residue (register : UInt32) : (ZMod 2)[X] :=
  poly (bits 32 register.toNat)

/-- The feedback mask is the generator without its leading term. -/
theorem generator_eq : generator = X ^ 32 + residue feedback := by
  have hbits : bits 32 feedback.toNat
      = [false, false, false, false, false, true, false, false, true, true, false, false, false,
        false, false, true, false, false, false, true, true, true, false, true, true, false, true,
        true, false, true, true, true] := by decide
  rw [residue, hbits, generator]
  simp [poly]
  ring

theorem degree_residue_lt (register : UInt32) : (residue register).degree < (32 : Nat) := by
  have := degree_poly_lt (bits 32 register.toNat)
  rwa [length_bits] at this

theorem monic_generator : generator.Monic := by
  rw [generator_eq]
  exact monic_X_pow_add (degree_residue_lt feedback)

theorem degree_generator : generator.degree = (32 : Nat) := by
  rw [generator_eq, degree_add_eq_left_of_degree_lt, degree_X_pow]
  rw [degree_X_pow]
  exact degree_residue_lt feedback

theorem residue_injective {a b : UInt32} (h : residue a = residue b) : a = b := by
  have hlength : (bits 32 a.toNat).length = (bits 32 b.toNat).length := by
    rw [length_bits, length_bits]
  exact UInt32.toNat_inj.1
    (bits_injective a.toNat_lt b.toNat_lt (poly_injective hlength h))

theorem residue_xor (a b : UInt32) : residue (a ^^^ b) = residue a + residue b := by
  have hbits : bits 32 (a ^^^ b).toNat
      = (List.range 32).map fun i => a.toNat.testBit i ^^ b.toNat.testBit i := by
    rw [bits, UInt32.toNat_xor]
    exact List.map_congr_left fun i _ => Nat.testBit_xor ..
  rw [residue, hbits, poly_map_xor]
  rfl

/-! ## The register -/

/-- Moving a register down by one place multiplies its polynomial by `X`, but for the bit that is
shifted out. -/
theorem residue_shiftRight (r : UInt32) :
    residue (r >>> 1) + (if r.toNat.testBit 0 then X ^ 32 else 0) = X * residue r := by
  have hbits : bits 32 (r >>> 1).toNat = bits 31 (r.toNat >>> 1) ++ [false] := by
    have hlt := r.toNat_lt
    have hhalf : r.toNat >>> 1 < 2 ^ 31 := by omega
    exact bits_add hhalf 1
  rw [residue, residue, hbits, bits_succ 31, poly_append]
  simp only [poly, length_bits, List.length_singleton, Bool.false_eq_true, if_false]
  cases r.toNat.testBit 0
  · simp only [Bool.false_eq_true, if_false]
    ring
  · simp only [if_true]
    ring

/-- Shifting a bit out multiplies the polynomial of the register by `X`, up to a multiple of the
generator. -/
theorem mk_residue_shift (r : UInt32) :
    AdjoinRoot.mk generator (residue (shift r)) = AdjoinRoot.mk generator (X * residue r) := by
  have hlow : r &&& 1 = 1 ↔ r.toNat.testBit 0 = true := by
    rw [← UInt32.toNat_inj, UInt32.toNat_and, Nat.testBit_zero]
    simp
  rw [shift, ← residue_shiftRight, AdjoinRoot.mk_eq_mk]
  by_cases h : r.toNat.testBit 0 = true
  -- A bit that comes out takes the feedback in, and the two together are the generator.
  · rw [if_pos (hlow.2 h), if_pos h, residue_xor, generator_eq]
    refine ⟨-1, ?_⟩
    have : (2 : (ZMod 2)[X]) = 0 := CharTwo.two_eq_zero
    linear_combination (residue feedback) * this
  · rw [if_neg fun hone => h (hlow.1 hone), if_neg h]
    simp

theorem residue_toUInt32 (byte : UInt8) :
    residue byte.toUInt32 = X ^ 24 * poly (bits 8 byte.toNat) := by
  have hbits : bits 32 byte.toUInt32.toNat = bits 8 byte.toNat ++ List.replicate 24 false := by
    rw [UInt8.toNat_toUInt32]
    exact bits_add byte.toNat_lt 24
  rw [residue, hbits, poly_append, poly_replicate_false, List.length_replicate, add_zero]

/-- Taking in a byte. -/
theorem mk_residue_absorb (r : UInt32) (byte : UInt8) :
    AdjoinRoot.mk generator (residue (absorb r byte))
      = AdjoinRoot.mk generator (X ^ 8 * residue r + X ^ 32 * poly (bits 8 byte.toNat)) := by
  rw [absorb]
  simp only [mk_residue_shift, map_mul, residue_xor, residue_toUInt32, map_add, map_pow]
  ring

theorem mk_residue_absorbAll (r : UInt32) (bytes : Bytes) :
    AdjoinRoot.mk generator (residue (absorbAll r bytes))
      = AdjoinRoot.mk generator
        (X ^ (8 * bytes.length) * residue r + X ^ 32 * poly (bitsOfBytes bytes)) := by
  induction bytes generalizing r with
  | nil =>
    rw [List.length_nil, show absorbAll r [] = r from rfl, show bitsOfBytes [] = [] from rfl, poly,
      Nat.mul_zero, pow_zero, one_mul, mul_zero, add_zero]
  | cons byte bytes ih =>
    have hbits : bitsOfBytes (byte :: bytes) = bits 8 byte.toNat ++ bitsOfBytes bytes := rfl
    rw [show absorbAll r (byte :: bytes) = absorbAll (absorb r byte) bytes from rfl, ih, hbits,
      poly_append, length_bitsOfBytes, List.length_cons, Nat.mul_succ, pow_add]
    simp only [map_add, map_mul, mk_residue_absorb]
    ring

/-- The register after a run of bytes is the remainder. -/
theorem residue_absorbAll (r : UInt32) (bytes : Bytes) :
    residue (absorbAll r bytes)
      = (X ^ (8 * bytes.length) * residue r + X ^ 32 * poly (bitsOfBytes bytes)) %ₘ generator := by
  have hself : residue (absorbAll r bytes) %ₘ generator = residue (absorbAll r bytes) := by
    rw [modByMonic_eq_self_iff monic_generator, degree_generator]
    exact degree_residue_lt _
  rw [← hself]
  exact modByMonic_eq_of_dvd_sub monic_generator
    (AdjoinRoot.mk_eq_mk.1 (mk_residue_absorbAll r bytes))

/-! ## The standard -/

/-- `crc` is the checksum CRC-32/ISO-HDLC of `bytes`. Its complement is the remainder on division by
the generator of the message with 32 zeros behind it and the first 32 bits complemented. The lowest
bit of every byte is sent first, and the lowest bit of the checksum stands for the highest power. -/
def IsoHdlc (bytes : Bytes) (crc : UInt32) : Prop :=
  residue (~~~crc)
    = (X ^ 32 * poly (bitsOfBytes bytes) + X ^ (8 * bytes.length) * residue 0xFFFFFFFF) %ₘ generator

/-- The checksum of an octet string is the one that the standard defines. -/
theorem isoHdlc_iff (bytes : Bytes) (crc : UInt32) : IsoHdlc bytes crc ↔ crc = ofBytes bytes := by
  have hregister := residue_absorbAll start bytes
  rw [add_comm] at hregister
  rw [IsoHdlc, ofBytes]
  constructor
  · intro h
    have hsame : ~~~crc = absorbAll start bytes := residue_injective (h.trans hregister.symm)
    rw [← hsame, UInt32.not_not]
  · rintro rfl
    rw [UInt32.not_not]
    exact hregister

/-- The digits from one to nine have the checksum by which implementations are told apart. -/
example : ofBytes [0x31, 0x32, 0x33, 0x34, 0x35, 0x36, 0x37, 0x38, 0x39] = 0xCBF43926 := by
  decide +kernel

end Crc32

end Reflash
