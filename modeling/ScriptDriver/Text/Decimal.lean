import ScriptDriver.Text.Basic
/-!
# Decimal — integers as they are written

An integer is an optional minus sign and ASCII digits.  Reading and writing are both bounded: beyond `digitLimit`
digits, leading zeros counted, an integer is neither read nor written (`TooLong`).
-/
namespace ScriptDriver.Decimal

/-- The most digits an integer is read from or written with. -/
def digitLimit : Nat := 4300

/-- An integer with too many digits; how many there are is known when it was read from text. -/
structure TooLong where
  digits : Option Nat
  deriving DecidableEq

def TooLong.message (e : TooLong) : Text :=
  "Exceeds the limit (4300 digits) for integer string conversion" ++
    (match e.digits with
      | some n => ": value has " ++ Text.ofNat n ++ " digits"
      | none => []) ++
    "; use sys.set_int_max_str_digits() to increase the limit"

def isDigit (g : Glyph) : Bool := g.isAscii Char.isDigit

def value (digits : Text) : Nat := digits.foldl (fun n g => n * 10 + (g.code - 0x30)) 0

def split (t : Text) : Bool × Text :=
  match t with
  | .char '-' :: digits => (true, digits)
  | digits => (false, digits)

/-- Whether `t` is a written integer: an optional minus sign and at least one digit. -/
def isInteger (t : Text) : Bool := (split t).2 ≠ [] && (split t).2.all isDigit

/-- The integer that the text denotes, of any length. -/
def denoted (t : Text) : Int :=
  if (split t).1 then -(value (split t).2 : Int) else (value (split t).2 : Int)

/-- The integer written as `t`, unless there are too many digits. -/
def read (t : Text) : Except TooLong Int :=
  if digitLimit < (split t).2.length then .error ⟨some (split t).2.length⟩ else .ok (denoted t)

/-- The canonical text of an integer, unless there are too many digits. -/
def write (n : Int) : Except TooLong Text :=
  if Nat.pow 10 digitLimit ≤ n.natAbs then .error ⟨none⟩ else .ok (Text.ofInt n)

end ScriptDriver.Decimal
