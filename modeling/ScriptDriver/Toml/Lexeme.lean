import ScriptDriver.Toml.Value
/-!
# Lexeme — strings, keys, numbers and dates as they are written

Each reader takes characters from the front and gives what it has read with the characters that are left, or nothing if
the characters begin with no such thing.
-/
namespace ScriptDriver.Toml

abbrev Source := List Char

/-- A reader of the front of a source. -/
abbrev Reader (α : Type) := Source → Option (α × Source)

def isBlank (c : Char) : Bool := c = ' ' || c = '\t'

def dropBlanks (s : Source) : Source := s.dropWhile isBlank

/-- A control character other than the tab. -/
def isControl (c : Char) : Bool := (c.toNat < 0x20 && c ≠ '\t') || c.toNat = 0x7F

/-! ## Strings -/

/-- A string is written between quotation marks of one kind, one of them or three. -/
structure Quotation where
  mark : Char
  triple : Bool

/-- A backslash escapes between double quotes only. -/
def Quotation.hasEscapes (q : Quotation) : Bool := q.mark = '"'

def Quotation.excludes (q : Quotation) (c : Char) : Bool := isControl c && !(q.triple && c = '\n')

/-- How far the reading of a string has come. -/
inductive StringPart where
  | plain
  | escape
  /-- Inside an escape by number: digits still to come, and the number so far. -/
  | number (left : Nat) (code : Nat)
  /-- After a backslash at the end of a line, before that end. -/
  | toLineEnd
  /-- After such an end, before the text goes on. -/
  | pastLineEnd
  | marks (count : Nat)

def hexDigit? (c : Char) : Option Nat :=
  if '0' ≤ c ∧ c ≤ '9' then some (c.toNat - 48)
  else if 'a' ≤ c ∧ c ≤ 'f' then some (c.toNat - 87)
  else if 'A' ≤ c ∧ c ≤ 'F' then some (c.toNat - 55)
  else none

def escaped? : Char → Option Char
  | 'b' => some '\x08'
  | 't' => some '\t'
  | 'n' => some '\n'
  | 'f' => some '\x0c'
  | 'r' => some '\r'
  | '"' => some '"'
  | '\\' => some '\\'
  | _ => none

/-- What one more character of a string does: `next` goes on with the characters it adds, `closed` means that the string
ended before it. -/
inductive StringStep where
  | next (adds : List Char) (part : StringPart)
  | closed (adds : List Char) (taken : Bool)
  | refused

/-- One more character when nothing special came before. -/
def Quotation.plainStep (q : Quotation) (c : Char) : StringStep :=
  if c = q.mark then (if q.triple then .next [] (.marks 1) else .closed [] true)
  else if c = '\\' && q.hasEscapes then .next [] .escape
  else if q.excludes c then .refused
  else .next [c] .plain

def Quotation.step (q : Quotation) (c : Char) : StringPart → StringStep
  | .plain => q.plainStep c
  | .escape =>
    if c = 'u' then .next [] (.number 4 0)
    else if c = 'U' then .next [] (.number 8 0)
    else if q.triple && isBlank c then .next [] .toLineEnd
    else if q.triple && c = '\n' then .next [] .pastLineEnd
    else
      match escaped? c with
      | some d => .next [d] .plain
      | none => .refused
  | .number left code =>
    match hexDigit? c with
    | none => .refused
    | some digit =>
      let code := code * 16 + digit
      if 1 < left then .next [] (.number (left - 1) code)
      else if code.isValidChar then .next [Char.ofNat code] .plain
      else .refused
  | .toLineEnd =>
    if isBlank c then .next [] .toLineEnd else if c = '\n' then .next [] .pastLineEnd else .refused
  | .pastLineEnd => if isBlank c || c = '\n' then .next [] .pastLineEnd else q.plainStep c
  | .marks count =>
    if c = q.mark then
      -- up to two marks can stand right before the three that close the string
      if count = 4 then .closed [q.mark, q.mark] true else .next [] (.marks (count + 1))
    else if 3 ≤ count then .closed (List.replicate (count - 3) q.mark) false
    else
      match q.plainStep c with
      | .next adds part => .next (List.replicate count q.mark ++ adds) part
      | other => other

/-- Reads a string from after its opening marks to its end. -/
def Quotation.read (q : Quotation) (part : StringPart) : Reader (List Char)
  | [] =>
    match part with
    | .marks count => if 3 ≤ count then some (List.replicate (count - 3) q.mark, []) else none
    | _ => none
  | c :: rest =>
    match q.step c part with
    | .refused => none
    | .closed adds taken => some (adds, if taken then rest else c :: rest)
    | .next adds part =>
      match q.read part rest with
      | none => none
      | some (t, rest) => some (adds ++ t, rest)

def simpleString? : Reader Text
  | '"' :: s => ((Quotation.mk '"' false).read .plain s).map fun (t, rest) => (Text.ofChars t, rest)
  | '\'' :: s => ((Quotation.mk '\'' false).read .plain s).map fun (t, rest) => (Text.ofChars t, rest)
  | _ => none

/-- Reads a string between triple marks; a line end right after the opening is left out. -/
def tripleString (mark : Char) (s : Source) : Option (Text × Source) :=
  let s := match s with
    | '\n' :: s => s
    | s => s
  ((Quotation.mk mark true).read .plain s).map fun (t, rest) => (Text.ofChars t, rest)

/-- Whether a source begins with an opening mark, and the rest after three of them. -/
def afterTriple? : Source → Option (Char × Source)
  | '"' :: '"' :: '"' :: s => some ('"', s)
  | '\'' :: '\'' :: '\'' :: s => some ('\'', s)
  | _ => none

/-! ## Keys -/

/-- A character of a name that needs no quotation marks. -/
def isBare (c : Char) : Bool := (c.toNat < 128 && c.isAlphanum) || c = '-' || c = '_'

def name? (s : Source) : Option (Text × Source) :=
  let bare := s.takeWhile isBare
  if bare = [] then simpleString? s else some (Text.ofChars bare, s.dropWhile isBare)

/-- Reads names with dots between them, at most `fuel` of them. -/
def names? : Nat → Reader (List Text)
  | 0, _ => none
  | fuel + 1, s =>
    match name? s with
    | none => none
    | some (name, rest) =>
      match dropBlanks rest with
      | '.' :: rest => (names? fuel (dropBlanks rest)).map fun (names, rest) => (name :: names, rest)
      | rest => some ([name], rest)

def key? (s : Source) : Option (List Text × Source) := names? (s.length + 1) s

/-! ## Numbers -/

/-- Reads digits of the kind `p`, a single underscore being allowed between two of them. -/
def moreDigits (p : Char → Bool) : Source → List Char × Source
  | '_' :: c :: s =>
    if p c then
      let (ds, rest) := moreDigits p s
      (c :: ds, rest)
    else ([], '_' :: c :: s)
  | c :: s =>
    if p c then
      let (ds, rest) := moreDigits p s
      (c :: ds, rest)
    else ([], c :: s)
  | [] => ([], [])

def digits? (p : Char → Bool) : Reader (List Char)
  | c :: s => if p c then some (moreDigits p (c :: s)) else none
  | [] => none

def valueOf (base : Nat) (ds : List Char) : Nat := ds.foldl (fun n c => n * base + (hexDigit? c).getD 0) 0

def isDigit (c : Char) : Bool := '0' ≤ c && c ≤ '9'

inductive Numeral where
  | bits (n : Nat)
  | decimal (negative : Bool) (digits : List Char)
  /-- `digits · 10 ^ exponent`. -/
  | fraction (negative : Bool) (digits : Nat) (exponent : Int)

/-- Reads the part after the point, if there is one. -/
def places (s : Source) : List Char × Source :=
  match s with
  | '.' :: rest => (digits? isDigit rest).getD ([], s)
  | _ => ([], s)

def exponent? (s : Source) : Option (Int × Source) :=
  let signed := fun (negative : Bool) (rest : Source) => (digits? isDigit rest).map fun (ds, rest) =>
    let n : Int := valueOf 10 ds
    (if negative then -n else n, rest)
  match s with
  | e :: rest =>
    if e = 'e' ∨ e = 'E' then
      match rest with
      | '-' :: rest => signed true rest
      | '+' :: rest => signed false rest
      | rest => signed false rest
    else none
  | [] => none

/-- Reads an integer or a fraction after its sign. -/
def unsigned? (negative : Bool) (s : Source) : Option (Numeral × Source) :=
  let whole := match s with
    | '0' :: rest => some (['0'], rest)
    | s => digits? isDigit s
  match whole with
  | none => none
  | some (ds, rest) =>
    let (fs, rest) := places rest
    match exponent? rest with
    | some (e, rest) => some (.fraction negative (valueOf 10 (ds ++ fs)) (e - fs.length), rest)
    | none =>
      if fs = [] then some (.decimal negative ds, rest)
      else some (.fraction negative (valueOf 10 (ds ++ fs)) (-fs.length), rest)

/-- Reads a number in a base that is a power of two, after its mark. -/
def bits? : Reader Numeral
  | '0' :: mark :: s =>
    let inBase := fun base (p : Char → Bool) => (digits? p s).map fun (ds, rest) => (Numeral.bits (valueOf base ds), rest)
    if mark = 'x' then inBase 16 fun c => (hexDigit? c).isSome
    else if mark = 'o' then inBase 8 fun c => '0' ≤ c && c ≤ '7'
    else if mark = 'b' then inBase 2 fun c => c = '0' || c = '1'
    else none
  | _ => none

def numeral? (s : Source) : Option (Numeral × Source) :=
  match bits? s with
  | some r => some r
  | none =>
    match s with
    | '-' :: rest => unsigned? true rest
    | '+' :: rest => unsigned? false rest
    | s => unsigned? false s

/-- Reads one of the numbers that are written as words. -/
def wordNumber? : Reader Double
  | 'i' :: 'n' :: 'f' :: s => some (.infinite false, s)
  | 'n' :: 'a' :: 'n' :: s => some (.nan, s)
  | '+' :: 'i' :: 'n' :: 'f' :: s => some (.infinite false, s)
  | '-' :: 'i' :: 'n' :: 'f' :: s => some (.infinite true, s)
  | '+' :: 'n' :: 'a' :: 'n' :: s => some (.nan, s)
  | '-' :: 'n' :: 'a' :: 'n' :: s => some (.nan, s)
  | _ => none

/-! ## Dates and times -/

/-- Reads a number of exactly two digits between two bounds. -/
def pair? (low high : Nat) : Reader Nat
  | a :: b :: s =>
    let n := valueOf 10 [a, b]
    if isDigit a && isDigit b && low ≤ n && n ≤ high then some (n, s) else none
  | _ => none

def mark? (c : Char) : Source → Option Source
  | d :: s => if d = c then some s else none
  | [] => none

/-- Reads millionths of a second; digits beyond the sixth are passed over. -/
def millionths (s : Source) : Nat × Source :=
  match s with
  | '.' :: rest =>
    let ds := rest.takeWhile isDigit
    if ds = [] then (0, s)
    else
      let six := ds.take 6
      (valueOf 10 six * Nat.pow 10 (6 - six.length), rest.dropWhile isDigit)
  | _ => (0, s)

def clock? (s : Source) : Option (Clock × Source) := do
  let (hour, s) ← pair? 0 23 s
  let (minute, s) ← pair? 0 59 (← mark? ':' s)
  let (second, s) ← pair? 0 59 (← mark? ':' s)
  let (micro, s) := millionths s
  pure (⟨hour, minute, second, micro⟩, s)

def date? (s : Source) : Option (Date × Source) := do
  let year := s.take 4
  if year.length = 4 ∧ year.all isDigit then
    let (month, s) ← pair? 1 12 (← mark? '-' (s.drop 4))
    let (day, s) ← pair? 1 31 (← mark? '-' s)
    pure (⟨valueOf 10 year, month, day⟩, s)
  else none

/-- Reads hours and minutes from universal time, if they are there. -/
def ahead (s : Source) : Option Int × Source :=
  let signed := fun (sign : Int) (rest : Source) =>
    match (do
      let (hours, rest) ← pair? 0 23 rest
      let (minutes, rest) ← pair? 0 59 (← mark? ':' rest)
      pure (sign * (hours * 60 + minutes : Nat), rest) : Option (Int × Source)) with
    | some (n, rest) => (some n, rest)
    | none => (none, s)
  match s with
  | 'Z' :: rest => (some 0, rest)
  | 'z' :: rest => (some 0, rest)
  | '+' :: rest => signed 1 rest
  | '-' :: rest => signed (-1) rest
  | _ => (none, s)

/-- Reads a date or a time.  That there is such a day is not asked. -/
def moment? (s : Source) : Option (Moment × Source) :=
  match date? s with
  | none => (clock? s).map fun (c, rest) => (.clock c, rest)
  | some (d, rest) =>
    match rest with
    | t :: after =>
      if t = 'T' ∨ t = 't' ∨ t = ' ' then
        match clock? after with
        | none => some (.date d, rest)
        | some (c, after) =>
          let (minutes, after) := ahead after
          some (.both d c minutes, after)
      else some (.date d, rest)
    | [] => some (.date d, rest)

def Moment.isValid : Moment → Bool
  | .date d | .both d _ _ => d.isValid
  | .clock _ => true

end ScriptDriver.Toml
