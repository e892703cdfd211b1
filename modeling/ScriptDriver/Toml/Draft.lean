import ScriptDriver.Toml.Value
/-!
# Draft — a document that is being written

Statements add to a document.  No value is written twice: what stands in brackets or braces is closed once it has been
written, a table that was given a heading is not given another, and one that came to be by a key with dots is not opened
by a later heading.  A heading of an array of tables begins the next table, and what was said about the last one no
longer holds.
-/
namespace ScriptDriver.Toml

/-- The names that lead from the top of a document to a value. -/
abbrev Key := List Text

/-- Changes the table that a key leads to; tables that are missing on the way are made.  If `enterArrays`, the way leads
through the last table of an array.  There is no result if a value that is no table is in the way. -/
def Table.changeAt (enterArrays : Bool) (change : Table → Option Table) : Key → Table → Option Table
  | [], t => change t
  | name :: key, t =>
    match t.get? name with
    | none => (Table.changeAt enterArrays change key []).map fun inner => t.set name (.table inner)
    | some (.table inner) => (Table.changeAt enterArrays change key inner).map fun inner => t.set name (.table inner)
    | some (.array items) =>
      match enterArrays, items.getLast? with
      | true, some (.table inner) =>
        (Table.changeAt enterArrays change key inner).map fun inner =>
          t.set name (.array (items.dropLast ++ [.table inner]))
      | _, _ => none
    | some _ => none

/-- The table with a new value; there is none if the name is taken. -/
def Table.add? (name : Text) (v : Value) (t : Table) : Option Table :=
  if (t.get? name).isSome then none else some (t.set name v)

def Table.extend? (name : Text) (t : Table) : Option Table :=
  match t.get? name with
  | none => some (t.set name (.array [.table []]))
  | some (.array items) => some (t.set name (.array (items ++ [.table []])))
  | some _ => none

/-- The last name of a key, and those before it. -/
def Key.stem (k : Key) : Text := k.getLast?.getD []
def Key.parent (k : Key) : Key := k.dropLast

/-- A document with what has been said about its keys. -/
structure Draft where
  table : Table := []
  /-- What stands in brackets or braces. -/
  closed : List Key := []
  /-- What no heading may open. -/
  headed : List Key := []
  /-- What no heading may open from the next heading on. -/
  pending : List Key := []
  /-- The heading that statements stand under. -/
  heading : Key := []

namespace Draft

def isClosed (d : Draft) (k : Key) : Bool := d.closed.any fun c => c.isPrefixOf k

/-- Begins a section: what was pending now holds. -/
def settle (d : Draft) : Draft := { d with headed := d.pending ++ d.headed, pending := [] }

def open? (d : Draft) (k : Key) : Option Draft :=
  if d.headed.contains k || d.isClosed k then none
  else
    match d.table.changeAt true some k with
    | none => none
    | some table => some { d with table, headed := k :: d.headed, heading := k }

def openNext? (d : Draft) (k : Key) : Option Draft :=
  if d.isClosed k then none
  else
    match d.table.changeAt true (Table.extend? k.stem) k.parent with
    | none => none
    -- what was said about the tables before does not hold for the next one
    | some table => some { d with
        table
        closed := d.closed.filter (!k.isPrefixOf ·)
        headed := k :: d.headed.filter (!k.isPrefixOf ·)
        heading := k }

/-- The keys of the tables that a key with dots leads through. -/
def between (heading k : Key) : List Key :=
  (List.range (k.length - 1)).map fun i => heading ++ k.take (i + 1)

def add? (d : Draft) (k : Key) (v : Value) : Option Draft :=
  let through := between d.heading k
  if through.any d.headed.contains || d.isClosed (d.heading ++ k.parent) then none
  else
    match d.table.changeAt true (Table.add? k.stem v) (d.heading ++ k.parent) with
    | none => none
    | some table => some { d with
        table
        closed := if v.isNested then (d.heading ++ k) :: d.closed else d.closed
        pending := through ++ d.pending }

def addInline? (d : Draft) (k : Key) (v : Value) : Option Draft :=
  if d.isClosed k then none
  else
    match d.table.changeAt false (Table.add? k.stem v) k.parent with
    | none => none
    | some table => some { d with table, closed := if v.isNested then k :: d.closed else d.closed }

end Draft
end ScriptDriver.Toml
