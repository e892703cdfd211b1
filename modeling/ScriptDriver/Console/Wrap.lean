import ScriptDriver.Console.CellWidth
import ScriptDriver.Text.Blank
/-!
# Wrap — fitting a line into a number of columns

Tabs go to the next multiple of eight columns.  A word keeps the blanks after it; it goes to a new line when it does not
fit on the current one without them.  A word longer than a whole line starts a new line, and is either cut into pieces
of the full width or left to be cropped.
-/
namespace ScriptDriver.Console

/-- The pieces of a line that end with a tab, and the rest. -/
def splitTabs : Text → List Text
  | [] => [[]]
  | g :: rest =>
    match splitTabs rest with
    | [] => [[g]]
    | piece :: pieces => if g.is '\t' then [g] :: piece :: pieces else (g :: piece) :: pieces

/-- The line with each tab replaced by the blanks up to the next multiple of eight columns, one at least. -/
def expandTabs (line : Text) : Text :=
  ((splitTabs line).foldl (fun (done, column) piece =>
    if piece.getLast? = some (.char '\t') then
      let piece := piece.dropLast ++ [.char ' ']
      let column := column + columns piece
      let fill := (8 - column % 8) % 8
      (done ++ piece ++ List.replicate fill (.char ' '), column + fill)
    else (done ++ piece, column + columns piece)) (([] : Text), 0)).1

/-- The next word of a line with the blanks around it, and the rest; nothing if only blanks are left. -/
def nextWord? (line : Text) : Option (Text × Text) :=
  let lead := line.takeWhile Glyph.isBlank
  let body := line.drop lead.length
  let word := body.takeWhile (!·.isBlank)
  let trail := (body.drop word.length).takeWhile Glyph.isBlank
  if word = [] then none else some (lead ++ word ++ trail, (body.drop word.length).drop trail.length)

/-- At most `fuel` words of a line, each with the blanks around it. -/
def wordsUpTo : Nat → Text → List Text
  | 0, _ => []
  | fuel + 1, line =>
    match nextWord? line with
    | none => []
    | some (word, rest) => word :: wordsUpTo fuel rest

def stripEnd (t : Text) : Text := (t.reverse.dropWhile Glyph.isBlank).reverse

def chop (width : Nat) (t : Text) : List Text :=
  let (done, piece, _) := t.foldl (fun (done, piece, used) g =>
    if width < used + columnsOfGlyph g then (piece.reverse :: done, [g], columnsOfGlyph g)
    else (done, g :: piece, used + columnsOfGlyph g)) (([] : List Text), ([] : Text), 0)
  (piece.reverse :: done).reverse

/-- Lines being filled: those done, last first, the current one, the columns used of it, and whether anything has been
put down yet. -/
structure Filling where
  done : List Text
  line : Text
  used : Nat
  begun : Bool

namespace Filling

/-- Ends the current line, unless nothing has been put down yet. -/
def newLine (f : Filling) : Filling := if f.begun then { f with done := f.line :: f.done, line := [] } else f

def put (f : Filling) (t : Text) (used : Nat) : Filling :=
  { f with line := f.line ++ t, used, begun := f.begun || t ≠ [] }

/-- Adds a word; one longer than a line is cut into pieces if `cut`. -/
def add (cut : Bool) (width : Nat) (f : Filling) (word : Text) : Filling :=
  let size := columns (stripEnd word)
  if f.used + size ≤ width then f.put word (f.used + columns word)
  else if width < size then
    if cut then (chop width word).foldl (fun f piece => f.newLine.put piece (columns piece)) f
    else f.newLine.put word (columns word)
  else if f.used ≠ 0 && f.begun then f.newLine.put word (columns word)
  else f.put word f.used

end Filling

/-- The lines that the words of a line are distributed over. -/
def distribute (cut : Bool) (width : Nat) (line : Text) : List Text :=
  match wordsUpTo line.length line with
  | [] => [line]
  | words =>
    let filled := words.foldl (Filling.add cut width) ⟨[], [], 0, false⟩
    (filled.line :: filled.done).reverse

/-- The line without trailing white space beyond `width` glyphs. -/
def trimBeyond (width : Nat) (line : Text) : Text :=
  let blanks := (line.reverse.takeWhile Glyph.isBlank).length
  line.take (line.length - min blanks (line.length - width))

/-- The longest beginning of a text within `width` columns, filled up with a blank where a wide glyph is cut. -/
def fitColumns (width : Nat) : Text → Text
  | [] => []
  | g :: rest =>
    if columnsOfGlyph g ≤ width then g :: fitColumns (width - columnsOfGlyph g) rest
    else List.replicate width (.char ' ')

def crop (width : Nat) (line : Text) : Text := if width < columns line then fitColumns width line else line

/-- The line within `width` columns, what is too long being cut off and marked. -/
def ellipsis (width : Nat) (line : Text) : Text :=
  if width < columns line then fitColumns (width - 1) line ++ [.char '…'] else line

def padTo (width : Nat) (line : Text) : Text := line ++ List.replicate (width - columns line) (.char ' ')

def linesOf (t : Text) : List Text := t.splitOn (·.is '\n')

/-- The lines of a text, wrapped to the width, words longer than a line being cut into pieces. -/
def wrap (width : Nat) (t : Text) : List Text :=
  (linesOf t).flatMap fun line =>
    (distribute true width (expandTabs line)).map fun piece => crop width (trimBeyond width piece)

/-- The lines of a table cell, filled up to the width: wrapped or not, words longer than a line being marked. -/
def cellLines (wrapped : Bool) (width : Nat) (t : Text) : List Text :=
  (linesOf t).flatMap fun line =>
    let line := expandTabs line
    (if wrapped then distribute false width line else [line]).map fun piece =>
      padTo width (ellipsis width (trimBeyond width piece))

/-- The lines of a title, each centred between blanks. -/
def centred (width : Nat) (t : Text) : List Text :=
  (wrap width t).map fun line =>
    let line := crop width (stripEnd line)
    padTo width (List.replicate ((width - columns line) / 2) (.char ' ') ++ line)

end ScriptDriver.Console
