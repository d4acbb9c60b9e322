/-
  Reflash.Text.Quoted

  Text between double quotes, as programs show it to people. What would break the
  quotes or the line stands behind a backslash, and what cannot be seen is shown by
  its number in braces. Single quotes need no escape.
-/
import Reflash.Text.Unmarked

namespace Reflash

namespace Text

/-- Lower case hexadecimal digits, at least `width` of them. -/
def hex (width n : Nat) : String :=
  let digits := Nat.toDigits 16 n
  .ofList (List.replicate (width - digits.length) '0' ++ digits)

/-- A character by its number. -/
def byNumber (c : Char) : String :=
  "\\u\x7b" ++ hex 1 c.toNat ++ "\x7d"

/-- The letter that stands for a character after a backslash. -/
def letter? : Char → Option Char
  | '\t' => some 't'
  | '\n' => some 'n'
  | '\r' => some 'r'
  | '\x00' => some '0'
  | '"' => some '"'
  | '\\' => some '\\'
  | _ => none

/-- Whether a character is shown as it is. -/
def isShown (c : Char) : Bool :=
  if c.toNat < 0x80 then decide (0x20 ≤ c.toNat ∧ c.toNat < 0x7F) else !isUnmarked c

def quotedChar (c : Char) : String :=
  match letter? c with
  | some letter => .ofList ['\\', letter]
  | none => if isShown c then .ofList [c] else byNumber c

/-- The text between quotes. -/
def quoted (text : String) : String :=
  "\"" ++ .join (text.toList.map quotedChar) ++ "\""

end Text

end Reflash
