/-
  Reflash.Text.Decimal

  Reading whole numbers: decimal digits, with or without a plus sign in front.
-/

namespace Reflash

namespace Text

/-- The value of a run of digits, `none` if anything else is among them. -/
def digits? (chars : List Char) : Option Nat :=
  chars.foldlM (fun value c => if c.isDigit then some (10 * value + (c.toNat - 48)) else none) 0

/-- The number written in `text`, if it is below `bound`. -/
def decimal? (bound : Nat) (text : String) : Option Nat :=
  let digits := match text.toList with
    | '+' :: rest => rest
    | chars => chars
  if digits.isEmpty then none else (digits? digits).filter (· < bound)

end Text

end Reflash
