/-
  Reflash.Text.Plain

  Text without the parts that a terminal would obey instead of showing. Such a part
  begins with an escape and is one of these:

    * a short sequence, which ends with the first character that names an action;
    * a control sequence, with parameters before that character;
    * a device string: a header like a control sequence, and a body;
    * a string of another kind, like the body of a device string;
    * a command to the system, which a bell ends.

  Blanks do their work inside a sequence too, and text that stands right behind one
  is shown although the sequence has not ended. The next control resumes it.
-/

namespace Reflash

namespace Text

/-- What a terminal takes the next character for. -/
inductive Attention where
  | ground
  | escape
  /-- A short sequence whose action takes more than one character to name. -/
  | longEscape
  | control
  | deviceEntry
  | deviceParameter
  | deviceIntermediate
  | string
  | command
  deriving DecidableEq, Inhabited

/-- White space that a terminal obeys wherever it stands between strings. -/
def isBlank (c : Char) : Bool :=
  c = '\t' || c = '\n' || c = '\x0c' || c = '\r'

/-- Whether a character is shown in running text. -/
def isPlain (c : Char) : Bool :=
  if c.toNat < 0x80 then isBlank c || decide (0x20 ≤ c.toNat ∧ c.toNat < 0x7F) else true

/-- Whether a byte of the character's encoding is the terminator of a string. -/
def holdsTerminator (c : Char) : Bool :=
  decide (0x80 ≤ c.toNat) && (String.singleton c).toUTF8.toList.contains 0x9C

namespace Attention

/-- Whether blanks are obeyed. -/
def obeysBlanks : Attention → Bool
  | ground | escape | longEscape | control => true
  | _ => false

/-- The character behind an escape tells what has begun. -/
def ofIntroducer (c : Char) : Attention :=
  if c = '[' then control
  else if c = ']' then command
  else if c = 'P' then deviceEntry
  else if c = 'X' || c = '^' || c = '_' then string
  else ground

/-- What a character changes where it is not running text. A character that ends something
belongs to what it ends. -/
def next (attention : Attention) (c : Char) : Attention :=
  let n := c.toNat
  let intermediate := decide (0x20 ≤ n ∧ n ≤ 0x2F)
  let parameter := decide (0x30 ≤ n ∧ n ≤ 0x3F)
  let letter := decide (0x40 ≤ n ∧ n ≤ 0x7E)
  -- An escape begins anew wherever it stands; two controls break off whatever is under way.
  if n = 0x1B then escape
  else if n = 0x18 || n = 0x1A then ground
  else match attention with
    | ground => ground
    | escape =>
      if intermediate then longEscape
      else if parameter || letter then ofIntroducer c
      else escape
    | longEscape => if parameter || letter then ground else longEscape
    | control => if letter then ground else control
    | deviceEntry =>
      if intermediate then deviceIntermediate
      else if parameter then deviceParameter
      else if letter then string
      else deviceEntry
    | deviceParameter =>
      -- The marks `<`, `=`, `>` and `?` may only come first.
      if intermediate then deviceIntermediate
      else if letter || (parameter && 0x3C ≤ n) then string
      else deviceParameter
    | deviceIntermediate => if parameter || letter then string else deviceIntermediate
    | string => if holdsTerminator c then ground else string
    | command => if n = 0x07 then ground else command

end Attention

/-- A terminal between two characters. -/
structure Reading where
  attention : Attention := .ground
  /-- Whether the last character was shown. -/
  shown : Bool := false
  deriving DecidableEq, Inhabited

namespace Reading

/-- Reads one more character. -/
def next (reading : Reading) (c : Char) : Reading :=
  if (reading.shown || reading.attention = .ground) && isPlain c then
    -- Beyond ASCII running text ends a sequence that blanks have interrupted.
    { attention := if c.toNat < 0x80 then reading.attention else .ground, shown := true }
  else
    { attention := reading.attention.next c
      shown := isBlank c && reading.attention.obeysBlanks }

/-- Those of the characters that are shown. -/
def plain : Reading → List Char → List Char
  | _, [] => []
  | reading, c :: rest =>
    let after := reading.next c
    if after.shown then c :: plain after rest else plain after rest

end Reading

/-- The text as a terminal shows it, without what it obeys. -/
def plain (text : String) : String :=
  .ofList (Reading.plain {} text.toList)

end Text

end Reflash
