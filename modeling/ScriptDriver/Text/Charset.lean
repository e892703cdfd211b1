import ScriptDriver.Text.Quoted
import ScriptDriver.Text.Utf8
/-!
# Charset — characters as bytes of a file

A file is written in one of three character sets.  A byte that is no character belongs to none of them; the first run of
glyphs that a set does not hold is what a failure names.  A failure to read names the first bytes that are ill-formed.
-/
namespace ScriptDriver

/-- The character sets a file can be written in. -/
inductive Charset where
  | utf8
  | latin1
  | ascii
  deriving DecidableEq

namespace Charset

def name : Charset → Text
  | .utf8 => "utf-8"
  | .latin1 => "latin-1"
  | .ascii => "ascii"

/-- Why a glyph is not in a character set. -/
def complaint : Charset → Text
  | .utf8 => "surrogates not allowed"
  | .latin1 => "ordinal not in range(256)"
  | .ascii => "ordinal not in range(128)"

/-- The bytes of a glyph in a character set that holds it. -/
def bytes? (cs : Charset) : Glyph → Option (List UInt8)
  | .raw _ => none
  | .char c =>
    match cs with
    | .utf8 => some (Utf8.bytesOf c.toNat)
    | .latin1 => if c.toNat < 256 then some [c.toNat.toUInt8] else none
    | .ascii => if c.toNat < 128 then some [c.toNat.toUInt8] else none

/-- A run of glyphs that a character set does not hold: the first one, where it stands, and how many there are. -/
structure Unencodable where
  charset : Charset
  glyph : Glyph
  position : Nat
  count : Nat
  deriving DecidableEq

def Unencodable.message (e : Unencodable) : Text :=
  "'" ++ e.charset.name ++ "' codec can't encode character" ++
    (if e.count = 1 then " '" ++ Text.escapedCode e.glyph.code ++ "' in position " ++ Text.ofNat e.position
     else "s in position " ++ Text.ofNat e.position ++ "-" ++ Text.ofNat (e.position + e.count - 1)) ++
    ": " ++ e.charset.complaint

/-- The bytes of a text of which `position` glyphs stand before. -/
def encodeFrom (cs : Charset) (position : Nat) : Text → Except Unencodable (List UInt8)
  | [] => .ok []
  | g :: t =>
    match cs.bytes? g with
    | none => .error ⟨cs, g, position, 1 + (t.takeWhile fun g => (cs.bytes? g).isNone).length⟩
    | some bytes =>
      match encodeFrom cs (position + 1) t with
      | .ok rest => .ok (bytes ++ rest)
      | .error e => .error e

def encode (cs : Charset) (t : Text) : Except Unencodable (List UInt8) := encodeFrom cs 0 t

end Charset

namespace Utf8

def Fault.words : Fault → Text
  | .start => "invalid start byte"
  | .continuation => "invalid continuation byte"
  | .truncated => "unexpected end of data"

def Undecodable.message (e : Undecodable) : Text :=
  "'utf-8' codec can't decode byte" ++
    (match e.bytes with
      | [b] => " 0x" ++ Text.hex 2 b.toNat ++ " in position " ++ Text.ofNat e.position
      | bytes => "s in position " ++ Text.ofNat e.position ++ "-" ++ Text.ofNat (e.position + bytes.length - 1)) ++
    ": " ++ e.fault.words

end Utf8
end ScriptDriver
