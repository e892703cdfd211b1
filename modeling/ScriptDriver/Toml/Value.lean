import ScriptDriver.Text.Decimal
import ScriptDriver.Text.Quoted
import ScriptDriver.Toml.Double
import ScriptDriver.Toml.Moment
/-!
# Value — what a configuration file holds

A document is a table: names with their values in the order in which they were written, no name twice.
-/
namespace ScriptDriver.Toml

inductive Value where
  | string (t : Text)
  | integer (n : Int)
  | float (x : Double)
  | boolean (b : Bool)
  | moment (m : Moment)
  | array (items : List Value)
  | table (entries : List (Text × Value))

abbrev Table := List (Text × Value)

def Table.get? (t : Table) (name : Text) : Option Value := (t.find? (·.1 = name)).map (·.2)

/-- The table with a value at a name, which keeps its place if it was there. -/
def Table.set (name : Text) (v : Value) : Table → Table
  | [] => [(name, v)]
  | (n, w) :: t => if n = name then (n, v) :: t else (n, w) :: Table.set name v t

namespace Value

def string? : Value → Option Text
  | .string t => some t
  | _ => none

def integer? : Value → Option Int
  | .integer n => some n
  | _ => none

def items? : Value → Option (List Value)
  | .array items => some items
  | _ => none

def entries? : Value → Option Table
  | .table entries => some entries
  | _ => none

def isNested : Value → Bool
  | .array _ | .table _ => true
  | _ => false

def listed (opening closing : Char) (parts : List Text) : Text :=
  .char opening :: Text.joinWith ", " parts ++ [.char closing]

mutual

/-- How a value is spelled in messages; an integer with too many digits cannot be. -/
def spelling : Value → Except Decimal.TooLong Text
  | .string t => .ok t.quoted
  | .integer n => Decimal.write n
  | .float x => .ok x.text
  | .boolean b => .ok (if b then "True" else "False")
  | .moment m => .ok m.spelling
  | .array items => (itemSpellings items).map (listed '[' ']')
  | .table entries => (entrySpellings entries).map (listed '\x7b' '\x7d')

def itemSpellings : List Value → Except Decimal.TooLong (List Text)
  | [] => .ok []
  | v :: rest =>
    match spelling v, itemSpellings rest with
    | .ok t, .ok ts => .ok (t :: ts)
    | .error e, _ | _, .error e => .error e

def entrySpellings : List (Text × Value) → Except Decimal.TooLong (List Text)
  | [] => .ok []
  | (name, v) :: rest =>
    match spelling v, entrySpellings rest with
    | .ok t, .ok ts => .ok ((name.quoted ++ ": " ++ t) :: ts)
    | .error e, _ | _, .error e => .error e

end

end Value
end ScriptDriver.Toml
