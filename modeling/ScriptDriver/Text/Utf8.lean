import ScriptDriver.Text.Basic
/-!
# Utf8 — bytes and text

A byte string is cut into `Chunk`s, each a well-formed character or the longest run of bytes that begins one and
breaks off.  The three readings of bytes differ only in what they make of an ill-formed chunk: `Text.ofBytes` keeps
its bytes, `Utf8.lossy` puts one replacement character, and `Utf8.strict` refuses and says where.
-/
namespace ScriptDriver

inductive Utf8.Fault where
  | start
  | continuation
  | truncated
  deriving DecidableEq

/-- A piece of a byte string: one character, or a run of bytes that is none. -/
inductive Utf8.Chunk where
  | scalar (c : Char)
  | bad (bytes : List UInt8) (fault : Utf8.Fault)

namespace Utf8

def isContinuation (b : UInt8) : Bool := 0x80 ≤ b.toNat && b.toNat < 0xC0

/-- The bytes that may follow `lead` directly: the shortest form is asked for, and neither a surrogate nor a code
beyond the last is a character. -/
def isSecond (lead b : UInt8) : Bool :=
  isContinuation b &&
    (if lead = 0xE0 then 0xA0 ≤ b.toNat
     else if lead = 0xED then b.toNat < 0xA0
     else if lead = 0xF0 then 0x90 ≤ b.toNat
     else if lead = 0xF4 then b.toNat < 0x90
     else true)

def low (b : UInt8) : Nat := b.toNat - 0x80

/-- The first chunk of the bytes `lead :: rest`, and how many bytes of `rest` it takes. -/
def first (lead : UInt8) (rest : List UInt8) : Chunk × Nat :=
  let n := lead.toNat
  if n < 0x80 then (.scalar (Char.ofNat n), 0)
  else if n < 0xC2 || 0xF5 ≤ n then (.bad [lead] .start, 0)
  else
    match rest with
    | [] => (.bad [lead] .truncated, 0)
    | b :: rest =>
      if !isSecond lead b then (.bad [lead] .continuation, 0)
      else if n < 0xE0 then (.scalar (Char.ofNat ((n - 0xC0) * 64 + low b)), 1)
      else
        match rest with
        | [] => (.bad [lead, b] .truncated, 1)
        | c :: rest =>
          if !isContinuation c then (.bad [lead, b] .continuation, 1)
          else if n < 0xF0 then (.scalar (Char.ofNat (((n - 0xE0) * 64 + low b) * 64 + low c)), 2)
          else
            match rest with
            | [] => (.bad [lead, b, c] .truncated, 2)
            | d :: _ =>
              if !isContinuation d then (.bad [lead, b, c] .continuation, 2)
              else (.scalar (Char.ofNat ((((n - 0xF0) * 64 + low b) * 64 + low c) * 64 + low d)), 3)

/-- The chunks of a byte string after its first `skip` bytes. -/
def chunksAfter : Nat → List UInt8 → List Chunk
  | _, [] => []
  | skip + 1, _ :: rest => chunksAfter skip rest
  | 0, lead :: rest => (first lead rest).1 :: chunksAfter (first lead rest).2 rest

def chunks (bytes : List UInt8) : List Chunk := chunksAfter 0 bytes

/-- The bytes of the character with code `n`. -/
def bytesOf (n : Nat) : List UInt8 :=
  if n < 0x80 then [n.toUInt8]
  else if n < 0x800 then [(0xC0 + n / 64).toUInt8, (0x80 + n % 64).toUInt8]
  else if n < 0x10000 then
    [(0xE0 + n / 4096).toUInt8, (0x80 + n / 64 % 64).toUInt8, (0x80 + n % 64).toUInt8]
  else
    [(0xF0 + n / 262144).toUInt8, (0x80 + n / 4096 % 64).toUInt8, (0x80 + n / 64 % 64).toUInt8,
      (0x80 + n % 64).toUInt8]

/-- The first ill-formed chunk with the number of bytes before it. -/
def firstBad (position : Nat) : List Chunk → Option (Nat × List UInt8 × Fault)
  | [] => none
  | .scalar c :: rest => firstBad (position + (bytesOf c.toNat).length) rest
  | .bad bytes fault :: _ => some (position, bytes, fault)

structure Undecodable where
  position : Nat
  bytes : List UInt8
  fault : Fault
  deriving DecidableEq

def Chunk.scalar? : Chunk → Option Char
  | .scalar c => some c
  | .bad _ _ => none

/-- The characters of bytes that are well-formed throughout. -/
def strict (bytes : List UInt8) : Except Undecodable (List Char) :=
  match firstBad 0 (chunks bytes) with
  | none => .ok ((chunks bytes).filterMap Chunk.scalar?)
  | some (position, bytes, fault) => .error ⟨position, bytes, fault⟩

/-- Each ill-formed chunk becomes one replacement character. -/
def lossy (bytes : List UInt8) : Text :=
  (chunks bytes).map fun chunk => match chunk with
    | .scalar c => .char c
    | .bad _ _ => .char '\uFFFD'

end Utf8

def Glyph.bytes : Glyph → List UInt8
  | .char c => Utf8.bytesOf c.toNat
  | .raw b => [b]

namespace Text

/-- The text of a byte string, the bytes of ill-formed chunks kept as they are. -/
def ofBytes (bytes : List UInt8) : Text :=
  (Utf8.chunks bytes).flatMap fun chunk => match chunk with
    | .scalar c => [.char c]
    | .bad bytes _ => bytes.map .raw

def toBytes (t : Text) : List UInt8 := t.flatMap Glyph.bytes

end Text
end ScriptDriver
