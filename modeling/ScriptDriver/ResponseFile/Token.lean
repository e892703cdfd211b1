import ScriptDriver.Text.Utf8
/-!
# Token — the arguments written in a response file

Blanks separate arguments, a pair of equal quotes groups, and a backslash takes the next symbol as it is, inside quotes
too.  The machine reads one symbol at a time and looks only at the symbol's `Sign`, so it runs alike on glyphs and on
bytes.  What is malformed is read in the obvious way: a quote left open ends with the text, and a backslash at the very
end stands for nothing.
-/
namespace ScriptDriver.ResponseFile

inductive Mark where
  | single
  | double
  deriving DecidableEq

/-- The part a symbol plays in a response file. -/
inductive Sign where
  | blank
  | quote (mark : Mark)
  | escape
  | plain
  deriving DecidableEq

/-- The sign of the symbol with code `n`: the six ASCII blanks, the two quotes, the backslash, all else plain. -/
def Sign.ofCode (n : Nat) : Sign :=
  if n = 0x20 ∨ (0x09 ≤ n ∧ n ≤ 0x0D) then .blank
  else if n = 0x27 then .quote .single
  else if n = 0x22 then .quote .double
  else if n = 0x5C then .escape
  else .plain

/-- The sign of a glyph; a byte that is no character is plain. -/
def Sign.ofGlyph : Glyph → Sign
  | .char c => .ofCode c.toNat
  | .raw _ => .plain

def Sign.ofByte (b : UInt8) : Sign := .ofCode b.toNat

/-- The machine between two symbols.  The argument being read and the arguments read are kept last first. -/
structure Scan (α : Type) where
  quote : Option Mark
  /-- The last symbol was a backslash that takes the next one. -/
  escaped : Bool
  current : List α
  tokens : List (List α)

namespace Scan
variable {α : Type}

def start : Scan α := ⟨none, false, [], []⟩

def push (s : Scan α) (x : α) : Scan α := { s with escaped := false, current := x :: s.current }

/-- The argument being read ends, if there is anything of it. -/
def close (s : Scan α) : Scan α :=
  if s.current.isEmpty then s else { s with current := [], tokens := s.current.reverse :: s.tokens }

def step (sign : α → Sign) (s : Scan α) (x : α) : Scan α :=
  if s.escaped then s.push x
  else
    match sign x with
    | .blank => if s.quote.isSome then s.push x else s.close
    | .quote mark =>
      match s.quote with
      | none => { s with quote := some mark }
      | some opened => if opened = mark then { s with quote := none } else s.push x
    | .escape => { s with escaped := true }
    | .plain => s.push x

def finish (s : Scan α) : List (List α) := s.close.tokens.reverse

/-- The arguments written in `xs`, by the signs of its symbols. -/
def run (sign : α → Sign) (xs : List α) : List (List α) := (xs.foldl (step sign) start).finish

end Scan

/-- The arguments written in the text of a response file. -/
def tokens (t : Text) : List Text := Scan.run Sign.ofGlyph t

end ScriptDriver.ResponseFile
