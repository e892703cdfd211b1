import ScriptDriver.Text.Printable
/-!
# Quoted — text as it is shown in messages

A text stands between single quotes, or between double quotes if it holds a single quote and no double one.  The quote,
the backslash and what cannot be printed are escaped, the shortest of `\xNN`, `\uNNNN` and `\UNNNNNNNN` being taken; a
byte that is no character is shown by the code that marks it.
-/
namespace ScriptDriver.Text

/-- The `digits` lowest hexadecimal digits of `n`. -/
def hex (digits n : Nat) : Text :=
  let ds := Nat.toDigits 16 n
  ofChars (List.replicate (digits - ds.length) '0' ++ ds)

def escapedCode (n : Nat) : Text :=
  if n < 0x100 then "\\x" ++ hex 2 n
  else if n < 0x10000 then "\\u" ++ hex 4 n
  else "\\U" ++ hex 8 n

/-- A glyph as it stands between the quotes `mark`. -/
def escapedGlyph (mark : Char) (g : Glyph) : Text :=
  if g.is mark || g.is '\\' then [.char '\\', g]
  else if g.is '\t' then "\\t"
  else if g.is '\n' then "\\n"
  else if g.is '\r' then "\\r"
  else if g.isPrintable then [g]
  else escapedCode g.code

def quotationMark (t : Text) : Char := if t.contains (.char '\'') && !t.contains (.char '"') then '"' else '\''

/-- The text between quotation marks, escaped where needed. -/
def quoted (t : Text) : Text :=
  .char t.quotationMark :: t.flatMap (escapedGlyph t.quotationMark) ++ [.char t.quotationMark]

end ScriptDriver.Text
