/-
  Reflash.Install.Layout

  Where things lie in a node's flash: the staging region that images are received
  into, the active region that the application runs from, and, if there is one,
  the page that records what is installed. A layout is usable when every place
  begins on an erase page, lies inside the part and overlaps no other, and when
  the part's write size divides everything that is written in one piece.
-/
import Reflash.Flash.Pages

namespace Reflash

/-- A stretch of flash, from `first` up to `last`. -/
structure Extent where
  first : Nat
  last : Nat
  deriving DecidableEq, Inhabited

namespace Extent

/-- Whether two stretches share a byte. -/
def Overlaps (a b : Extent) : Prop :=
  a.first < b.last ∧ b.first < a.last

instance (a b : Extent) : Decidable (Overlaps a b) :=
  inferInstanceAs (Decidable (_ ∧ _))

end Extent

structure Layout where
  /-- Where images are received. -/
  staging : Nat
  /-- Where the application runs. -/
  active : Nat
  /-- Size of either region. -/
  regionSize : Nat
  /-- The page that records the installed image. -/
  record? : Option Nat := none
  deriving DecidableEq, Inhabited

namespace Layout

/-- Largest write size that a last chunk can be filled up to. -/
def maxWriteSize : Nat := 16

/-- Bytes of an encoded record. -/
def recordSize : Nat := 32

/-- Everything a node may erase or program. -/
def extents (g : Geometry) (layout : Layout) : List Extent :=
  ⟨layout.staging, layout.staging + layout.regionSize⟩ ::
    ⟨layout.active, layout.active + layout.regionSize⟩ ::
      layout.record?.toList.map fun offset => ⟨offset, offset + g.eraseSize⟩

/-- Whether what is written in one piece is a whole number of writes. -/
def WriteSizeFits (g : Geometry) : Prop :=
  g.writeSize ≤ maxWriteSize ∧ Pages.blockSize % g.writeSize = 0 ∧ recordSize % g.writeSize = 0

instance (g : Geometry) : Decidable (WriteSizeFits g) :=
  inferInstanceAs (Decidable (_ ∧ _))

/-- Whether a node can work in this layout on such a part. -/
def Usable (g : Geometry) (layout : Layout) : Prop :=
  WriteSizeFits g ∧
  (0 < layout.regionSize ∧ layout.regionSize % g.eraseSize = 0) ∧
  (∀ extent ∈ layout.extents g, extent.first % g.eraseSize = 0 ∧ extent.last ≤ g.capacity) ∧
  (layout.extents g).Pairwise fun a b => ¬a.Overlaps b

instance (g : Geometry) (layout : Layout) : Decidable (layout.Usable g) :=
  inferInstanceAs (Decidable (_ ∧ _))

def check (g : Geometry) (layout : Layout) : Except Fault Unit :=
  if layout.Usable g then .ok () else .error .invalidArgs

end Layout

end Reflash
