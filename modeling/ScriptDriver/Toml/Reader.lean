import ScriptDriver.Toml.Draft
import ScriptDriver.Toml.Lexeme
/-!
# Reader — the document that a text says

A document is read statement by statement, and each statement is added to the document before the next one is read; so
what is reported is the first thing that is wrong.  A decimal integer with too many digits is well written, but it cannot
be read.
-/
namespace ScriptDriver.Toml

inductive Fault where
  | malformed
  | tooLong (e : Decimal.TooLong)
  deriving DecidableEq

/-- What was read, with the characters that are left. -/
abbrev Parsed (α : Type) := Except Fault (α × Source)

/-- What a reader of the front finds, or a malformed text. -/
def expect {α : Type} : Option (α × Source) → Parsed α
  | some r => .ok r
  | none => .error .malformed

def Numeral.value : Numeral → Except Fault Value
  | .bits n => .ok (.integer n)
  | .decimal negative ds =>
    if Decimal.digitLimit < ds.length then .error (.tooLong ⟨some ds.length⟩)
    else .ok (.integer (if negative then -(valueOf 10 ds : Int) else valueOf 10 ds))
  | .fraction negative digits exponent => .ok (.float (.ofDecimal negative digits exponent))

/-- Reads a value that is no array and no table. -/
def scalar (s : Source) : Parsed Value :=
  match afterTriple? s with
  | some (mark, rest) => expect ((tripleString mark rest).map fun (t, rest) => (.string t, rest))
  | none =>
    match s with
    | '"' :: _ | '\'' :: _ => expect ((simpleString? s).map fun (t, rest) => (.string t, rest))
    | 't' :: 'r' :: 'u' :: 'e' :: rest => .ok (.boolean true, rest)
    | 'f' :: 'a' :: 'l' :: 's' :: 'e' :: rest => .ok (.boolean false, rest)
    | _ =>
      match moment? s with
      | some (m, rest) => if m.isValid then .ok (.moment m, rest) else .error .malformed
      | none =>
        match numeral? s with
        | some (n, rest) =>
          match n.value with
          | .ok v => .ok (v, rest)
          | .error e => .error e
        | none => expect ((wordNumber? s).map fun (x, rest) => (.float x, rest))

/-- A source after a comment at its front, if there is one. -/
def dropComment : Source → Option Source
  | '#' :: s =>
    let comment := s.takeWhile (· ≠ '\n')
    if comment.any isControl then none else some (s.dropWhile (· ≠ '\n'))
  | s => some s

/-- A source after blanks, line ends and comments at its front, of which there are at most `fuel`. -/
def dropGap : Nat → Source → Option Source
  | 0, s => some s
  | fuel + 1, s =>
    match s.dropWhile fun c => isBlank c || c = '\n' with
    | '#' :: s =>
      match dropComment ('#' :: s) with
      | none => none
      | some s => dropGap fuel s
    | s => some s

/-- A source after whatever may stand between the items of an array. -/
def dropGaps (s : Source) : Option Source := dropGap (s.length + 1) s

def keyValue (value : Source → Parsed Value) (s : Source) : Parsed (Key × Value) :=
  match key? s with
  | some (k, '=' :: rest) =>
    match value (dropBlanks rest) with
    | .ok (v, rest) => .ok ((k, v), rest)
    | .error e => .error e
  | _ => .error .malformed

/-- Reads the items of an array after its opening bracket or a comma, with `value` for an item, up to its end. -/
def arrayItems (value : Source → Parsed Value) : Nat → Source → Parsed (List Value)
  | 0, _ => .error .malformed
  | fuel + 1, s =>
    match dropGaps s with
    | none => .error .malformed
    | some (']' :: rest) => .ok ([], rest)
    | some s =>
      match value s with
      | .error e => .error e
      | .ok (v, rest) =>
        match dropGaps rest with
        | some (']' :: rest) => .ok ([v], rest)
        | some (',' :: rest) =>
          match arrayItems value fuel rest with
          | .ok (vs, rest) => .ok (v :: vs, rest)
          | .error e => .error e
        | _ => .error .malformed

/-- Reads the entries of a table in braces up to its end and adds them to what has been read. -/
def inlineEntries (value : Source → Parsed Value) : Nat → Draft → Source → Parsed Table
  | 0, _, _ => .error .malformed
  | fuel + 1, d, s =>
    match keyValue value s with
    | .error e => .error e
    | .ok ((k, v), rest) =>
      match d.addInline? k v with
      | none => .error .malformed
      | some d =>
        match dropBlanks rest with
        | '\x7d' :: rest => .ok (d.table, rest)
        | ',' :: rest => inlineEntries value fuel d (dropBlanks rest)
        | _ => .error .malformed

/-- Reads a value with arrays and tables nested at most `depth` deep. -/
def value : Nat → Source → Parsed Value
  | 0, _ => .error .malformed
  | depth + 1, s =>
    match s with
    | '[' :: rest =>
      match arrayItems (value depth) (rest.length + 1) rest with
      | .ok (vs, rest) => .ok (.array vs, rest)
      | .error e => .error e
    | '\x7b' :: rest =>
      match dropBlanks rest with
      | '\x7d' :: rest => .ok (.table [], rest)
      | rest =>
        match inlineEntries (value depth) (rest.length + 1) {} rest with
        | .ok (t, rest) => .ok (.table t, rest)
        | .error e => .error e
    | s => scalar s

def Draft.orMalformed (d : Option Draft) (rest : Source) : Parsed Draft :=
  match d with
  | some d => .ok (d, rest)
  | none => .error .malformed

/-- Reads a heading after its opening brackets; `closing` is what ends it. -/
def heading (add : Key → Option Draft) (closing : List Char) (s : Source) : Parsed Draft :=
  match key? (dropBlanks s) with
  | none => .error .malformed
  | some (k, rest) =>
    match add k with
    | none => .error .malformed
    | some d => if closing.isPrefixOf rest then .ok (d, rest.drop closing.length) else .error .malformed

/-- Reads one statement, if there is one before the end of the line. -/
def statement (d : Draft) (s : Source) : Parsed Draft :=
  match s with
  | [] => .ok (d, [])
  | '\n' :: rest => .ok (d, '\n' :: rest)
  | '#' :: rest => .ok (d, '#' :: rest)
  | '[' :: '[' :: rest => heading d.settle.openNext? [']', ']'] rest
  | '[' :: rest => heading d.settle.open? [']'] rest
  | s =>
    match keyValue (value (s.length + 1)) s with
    | .error e => .error e
    | .ok ((k, v), rest) => Draft.orMalformed (d.add? k v) rest

def lines : Nat → Draft → Source → Except Fault Draft
  | 0, d, _ => .ok d
  | fuel + 1, d, s =>
    match statement d (dropBlanks s) with
    | .error e => .error e
    | .ok (d, rest) =>
      match dropComment (dropBlanks rest) with
      | none => .error .malformed
      | some [] => .ok d
      | some ('\n' :: rest) => lines fuel d rest
      | some _ => .error .malformed

/-- Each carriage return with a line feed is a line feed. -/
def unixLines : Source → Source
  | '\r' :: '\n' :: s => '\n' :: unixLines s
  | c :: s => c :: unixLines s
  | [] => []

def read (s : Source) : Except Fault Table :=
  let s := unixLines s
  match lines (s.length + 1) {} s with
  | .ok d => .ok d.table
  | .error e => .error e

end ScriptDriver.Toml
