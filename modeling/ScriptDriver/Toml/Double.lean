import ScriptDriver.Text.Basic
/-!
# Double — binary fractions of 53 bits

A finite number is `m · 2 ^ q` with `m` below `2 ^ 53`.  A decimal is read as the nearest such number, a tie going to
the even `m`.  A number is written with the fewest decimal digits that are nearer to it than to any other; of two such
writings the nearer one is taken, and of two equally near ones that with the even last digit.
-/
namespace ScriptDriver.Toml

inductive Double where
  | nan
  | infinite (negative : Bool)
  | finite (negative : Bool) (m : Nat) (q : Int)
  deriving DecidableEq

namespace Double

/-- The exponent of the smallest numbers, and of the greatest. -/
def lowestExponent : Int := -1074
def highestExponent : Int := 971

/-- `2 ^ 52`, the least `m` of a number that is not among the smallest. -/
def hidden : Nat := Nat.pow 2 52

/-- The integer nearest to `n / d`, a tie going to the even one. -/
def roundEven (n d : Nat) : Nat :=
  let low := n / d
  let rest := 2 * (n % d)
  if rest < d ∨ (rest = d ∧ low % 2 = 0) then low else low + 1

/-- `n / d / b ^ e`, as a fraction. -/
def scaled (n d b : Nat) (e : Int) : Nat × Nat :=
  if e < 0 then (n * Nat.pow b e.natAbs, d) else (n, d * Nat.pow b e.natAbs)

/-- The number nearest to `n / d`. -/
def ofFraction (negative : Bool) (n d : Nat) : Double :=
  if n = 0 then .finite negative 0 lowestExponent
  else
    let high := (n.log2 : Int) - d.log2 - 52
    let (a, b) := scaled n d 2 high
    let q := max lowestExponent (if a / b < hidden then high - 1 else high)
    let (a, b) := scaled n d 2 q
    let m := roundEven a b
    -- rounding up can take one bit more
    let (m, q) := if m = 2 * hidden then (hidden, q + 1) else (m, q)
    if highestExponent < q then .infinite negative else .finite negative m q

/-- The number nearest to `digits · 10 ^ e`.  Far beyond the greatest and the smallest number nothing is computed. -/
def ofDecimal (negative : Bool) (digits : Nat) (e : Int) : Double :=
  let size := (digits.log2 : Int) / 4 + e
  if digits = 0 ∨ (digits.log2 : Int) + e < -1000 then .finite negative 0 lowestExponent
  else if 400 < size then .infinite negative
  else
    let (n, d) := scaled digits 1 10 (-e)
    ofFraction negative n d

/-- The numbers that `m · 2 ^ q` is the nearest to, each as a multiple of `2 ^ (q - 2)`: the least, the number itself,
the greatest. -/
def neighbourhood (m : Nat) (q : Int) : Nat × Nat × Nat :=
  (if m = hidden ∧ lowestExponent < q then 4 * m - 1 else 4 * m - 2, 4 * m, 4 * m + 2)

/-- The digits of `m · 2 ^ q` on the decimal grid `10 ^ e`, if the grid meets the neighbourhood. -/
def onGrid? (m : Nat) (q e : Int) : Option Nat :=
  let (low, mid, high) := neighbourhood m q
  let (n, d) := scaled 1 1 2 (2 - q)
  let (n, d) := scaled n d 10 e
  let below := mid * n / d
  let inside := fun x : Nat =>
    (low * n < x * d ∧ x * d < high * n) ∨ (m % 2 = 0 ∧ (low * n = x * d ∨ x * d = high * n))
  let nearest := roundEven (mid * n) d
  if inside nearest then some nearest
  else if inside below then some below
  else if inside (below + 1) then some (below + 1)
  else none

/-- The least `e` with `m · 2 ^ q < 10 ^ e`, found by going up from a lower bound. -/
def magnitude (m : Nat) (q : Int) : Int :=
  let start : Int := ((m.log2 : Int) + q) * 30103 / 100000 - 1
  let less := fun e : Int =>
    let (n, d) := scaled m 1 2 (-q)
    let (n, d) := scaled n d 10 e
    n < d
  ((List.range 5).map fun i : Nat => start + i).find? (fun e => less e) |>.getD (start + 5)

/-- The shortest digits of a positive number with the exponent of their last place: 1, 2, … 17 digits are tried. -/
def shortest (m : Nat) (q : Int) : Nat × Int :=
  let top := magnitude m q
  ((List.range 17).findSome? fun i : Nat =>
    let e := top - 1 - i
    (onGrid? m q e).map fun digits => (digits, e)).getD (m, q)

def withoutZeros : List Char → List Char × Nat := fun digits =>
  let kept := (digits.reverse.dropWhile (· = '0')).reverse
  (kept, digits.length - kept.length)

/-- The text of the digits `ds`, the point standing `point` places from the left: positional from `1e-4` up to below
`1e16`, with an exponent of at least two digits beyond. -/
def layOut (ds : List Char) (point : Int) : Text :=
  let n : Int := ds.length
  if point ≤ -4 ∨ 16 < point then
    let e := point - 1
    let digits := Nat.toDigits 10 e.natAbs
    let padded := if digits.length < 2 then '0' :: digits else digits
    Text.ofChars (ds.take 1 ++ (if n = 1 then [] else '.' :: ds.drop 1) ++ ['e', if e < 0 then '-' else '+'] ++ padded)
  else if point ≤ 0 then Text.ofChars (['0', '.'] ++ List.replicate point.natAbs '0' ++ ds)
  else if n ≤ point then Text.ofChars (ds ++ List.replicate (point - n).natAbs '0' ++ ['.', '0'])
  else Text.ofChars (ds.take point.natAbs ++ '.' :: ds.drop point.natAbs)

def text : Double → Text
  | .nan => "nan"
  | .infinite negative => if negative then "-inf" else "inf"
  | .finite negative m q =>
    let body : Text :=
      if m = 0 then "0.0"
      else
        let (digits, e) := shortest m q
        let (ds, zeros) := withoutZeros (Nat.toDigits 10 digits)
        layOut ds (ds.length + e + zeros)
    if negative then .char '-' :: body else body

end Double
end ScriptDriver.Toml
