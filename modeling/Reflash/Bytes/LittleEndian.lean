/-
  Reflash.Bytes.LittleEndian

  Octet strings and the fixed-width words inside them, lowest byte first.
  Encoding and decoding a word are inverse in both directions, and a word is
  read back from wherever it was appended.
-/

namespace Reflash

/-- An octet string. -/
abbrev Bytes := List UInt8

namespace Bytes

/-- The first `n` bytes, filled up with zeros when there are fewer. -/
def padTo (n : Nat) (bs : Bytes) : Bytes :=
  bs.take n ++ List.replicate (n - bs.length) 0

@[simp] theorem length_padTo (n : Nat) (bs : Bytes) : (padTo n bs).length = n := by
  simp [padTo]; omega

theorem padTo_of_length {n : Nat} {bs : Bytes} (h : bs.length = n) : padTo n bs = bs := by
  simp [padTo, ← h]

/-- Byte `i`, zero beyond the end. -/
def byteAt (bs : Bytes) (i : Nat) : UInt8 :=
  bs.getD i 0

end Bytes

namespace LittleEndian

/-! ## Words to bytes -/

/-- The two bytes of a 16 bit word. -/
def encode16 (w : UInt16) : Bytes :=
  [.ofNat w.toNat, .ofNat (w.toNat / 0x100)]

/-- The four bytes of a 32 bit word. -/
def encode32 (w : UInt32) : Bytes :=
  [.ofNat w.toNat, .ofNat (w.toNat / 0x100),
    .ofNat (w.toNat / 0x10000), .ofNat (w.toNat / 0x1000000)]

@[simp] theorem length_encode16 (w : UInt16) : (encode16 w).length = 2 := rfl

@[simp] theorem length_encode32 (w : UInt32) : (encode32 w).length = 4 := rfl

/-! ## Bytes to words -/

/-- The 16 bit word with the given bytes. -/
def decode16 (a b : UInt8) : UInt16 :=
  .ofNat (a.toNat + 0x100 * b.toNat)

/-- The 32 bit word with the given bytes. -/
def decode32 (a b c d : UInt8) : UInt32 :=
  .ofNat (a.toNat + 0x100 * b.toNat + 0x10000 * c.toNat + 0x1000000 * d.toNat)

/-- The 16 bit word stored at `offset`. -/
def word16At (bs : Bytes) (offset : Nat) : UInt16 :=
  decode16 (bs.byteAt offset) (bs.byteAt (offset + 1))

/-- The 32 bit word stored at `offset`. -/
def word32At (bs : Bytes) (offset : Nat) : UInt32 :=
  decode32 (bs.byteAt offset) (bs.byteAt (offset + 1))
    (bs.byteAt (offset + 2)) (bs.byteAt (offset + 3))

/-! ## Inverse laws -/

theorem decode16_encode16 (w : UInt16) :
    decode16 (.ofNat w.toNat) (.ofNat (w.toNat / 0x100)) = w := by
  have := w.toNat_lt
  apply UInt16.toNat_inj.1
  simp only [decode16, UInt8.toNat_ofNat', UInt16.toNat_ofNat']
  omega

theorem decode32_encode32 (w : UInt32) :
    decode32 (.ofNat w.toNat) (.ofNat (w.toNat / 0x100))
      (.ofNat (w.toNat / 0x10000)) (.ofNat (w.toNat / 0x1000000)) = w := by
  have := w.toNat_lt
  apply UInt32.toNat_inj.1
  simp only [decode32, UInt8.toNat_ofNat', UInt32.toNat_ofNat']
  omega

theorem encode16_decode16 (a b : UInt8) : encode16 (decode16 a b) = [a, b] := by
  have := a.toNat_lt
  have := b.toNat_lt
  simp only [encode16, decode16, List.cons.injEq, and_true, ← UInt8.toNat_inj,
    UInt8.toNat_ofNat', UInt16.toNat_ofNat']
  omega

theorem encode32_decode32 (a b c d : UInt8) : encode32 (decode32 a b c d) = [a, b, c, d] := by
  have := a.toNat_lt
  have := b.toNat_lt
  have := c.toNat_lt
  have := d.toNat_lt
  simp only [encode32, decode32, List.cons.injEq, and_true, ← UInt8.toNat_inj,
    UInt8.toNat_ofNat', UInt32.toNat_ofNat']
  omega

end LittleEndian

end Reflash
