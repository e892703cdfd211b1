import ScriptDriver.Console.Markup
import ScriptDriver.Console.Wrap
/-!
# Table — two columns under a title

The columns stand side by side with two blanks between them.  If they are too wide for the console, the texts in the
second one are wrapped into what the first one leaves.
-/
namespace ScriptDriver.Console

/-- The control characters that are never shown: bell, backspace, vertical tab, form feed, carriage return. -/
def isDropped (g : Glyph) : Bool := [7, 8, 11, 12, 13].contains g.code

/-- Whether a glyph ends a line for the purpose of measuring a text. -/
def endsLine (g : Glyph) : Bool := [0x0A, 0x1C, 0x1D, 0x1E, 0x85, 0x2028, 0x2029].contains g.code

/-- The columns a text needs: those of its longest line. -/
def widest (t : Text) : Nat := ((t.splitOn endsLine).map columns).foldl max 0

/-- The widths of the two columns, each with one blank towards the other. -/
def tableColumns (width : Nat) (entries : List (Text × Text)) : Nat × Nat :=
  if entries = [] then (width, 0)
  else
    let left := (entries.map fun e => widest e.1).foldl max 0 + 1
    let right := (entries.map fun e => widest e.2).foldl max 0 + 1
    if left + right ≤ width then (left, right) else (min left width, width - left)

/-- The lines of one entry: the two cells side by side, the shorter one filled up with blank lines. -/
def entryLines (left right : Nat) (entry : Text × Text) : List Text :=
  let first := (cellLines false (left - 1) entry.1).map (· ++ [Glyph.char ' '])
  let second := (cellLines true (right - 1) entry.2).map (Glyph.char ' ' :: ·)
  let height := max first.length second.length
  let fill (n : Nat) (lines : List Text) : List Text :=
    lines ++ List.replicate (height - lines.length) (List.replicate n (Glyph.char ' '))
  List.zipWith (· ++ ·) (fill left first) (fill right second)

/-- What a table shows of entries that are to be shown as they are. -/
def table (width : Nat) (title : Text) (entries : List (Text × Text)) : Text :=
  let visible (t : Text) : Text := (literal t).filter (!isDropped ·)
  let entries := entries.map fun e => (visible e.1, visible e.2)
  let (left, right) := tableColumns width entries
  (centred (left + right) title ++ entries.flatMap (entryLines left right)).flatMap (· ++ [.char '\n'])

end ScriptDriver.Console
