/-!
# Text — the characters a command line is made of

A command line and the files beside it are bytes, mostly UTF-8.  `Text` keeps what is not: a `Glyph` is either a
character or one byte that no character accounts for, so nothing read from outside is lost.
-/
namespace ScriptDriver

/-- One unit of text: a character, or a byte that is part of no character. -/
inductive Glyph where
  | char (c : Char)
  | raw (b : UInt8)
  deriving DecidableEq, Inhabited

/-- Text as it is passed around: characters with the bytes in between that are none. -/
abbrev Text := List Glyph

namespace Glyph

def is (g : Glyph) (c : Char) : Bool := g = .char c

def char? : Glyph → Option Char
  | .char c => some c
  | .raw _ => none

/-- The code of a character; a byte that is none counts as the code that marks it. -/
def code : Glyph → Nat
  | .char c => c.toNat
  | .raw b => 0xDC00 + b.toNat

def isAscii (p : Char → Bool) : Glyph → Bool
  | .char c => c.toNat < 128 && p c
  | .raw _ => false

end Glyph

namespace Text

def ofString (s : String) : Text := s.toList.map Glyph.char

def ofChars (cs : List Char) : Text := cs.map Glyph.char

/-- The characters of a text that has nothing else in it. -/
def toString? (t : Text) : Option String := (t.mapM Glyph.char?).map String.ofList

/-- `xs` in order with `sep` between neighbours. -/
def joinWith (sep : Text) (xs : List Text) : Text := List.intercalate sep xs

/-- The pieces of `t` between the glyphs that satisfy `p`; always one more than there are such glyphs. -/
def splitOn (p : Glyph → Bool) : Text → List Text
  | [] => [[]]
  | g :: t =>
    match splitOn p t with
    | [] => [[]]
    | piece :: pieces => if p g then [] :: piece :: pieces else (g :: piece) :: pieces

def fields (p : Glyph → Bool) (t : Text) : List Text := (splitOn p t).filter (· ≠ [])

/-- `t` without the glyphs that satisfy `p` at its two ends. -/
def trim (p : Glyph → Bool) (t : Text) : Text := ((t.dropWhile p).reverse.dropWhile p).reverse

def ofNat (n : Nat) : Text := ofChars (Nat.toDigits 10 n)

def ofInt : Int → Text
  | .ofNat n => ofNat n
  | .negSucc n => Glyph.char '-' :: ofNat (n + 1)

end Text

instance : Coe String Text := ⟨Text.ofString⟩

end ScriptDriver
