import ScriptDriver.CommandLine.Descriptor
/-!
# OptionTable — rows with distinct identifiers

A table is built row by row and refuses an identifier it already has.  Looking a row up and following what a row stands
for fail only on an identifier that no row has; rows that stand for each other in a circle are followed once around.
-/
namespace ScriptDriver.CommandLine

inductive TableFault where
  | duplicate (id : OptionId)
  | absent (id : OptionId)
  deriving DecidableEq

def TableFault.message : TableFault → Text
  | .duplicate id => "Duplicate option ID in table: " ++ id.label
  | .absent id => "<OptionID." ++ Text.ofString id.label ++ ": " ++ Text.ofNat id.number ++ ">"

/-- Rows in the order given, no two with one identifier. -/
structure OptionTable where
  rows : List Descriptor
  distinct : (rows.map (·.id)).Nodup

namespace OptionTable

def empty : OptionTable := ⟨[], List.nodup_nil⟩

def ids (t : OptionTable) : List OptionId := t.rows.map (·.id)

def insert? (t : OptionTable) (d : Descriptor) : Except TableFault OptionTable :=
  if h : d.id ∈ t.ids then .error (.duplicate d.id)
  else .ok ⟨t.rows ++ [d], by
    rw [List.map_append, List.map_cons, List.map_nil, List.nodup_append]
    refine ⟨t.distinct, by simp, fun a ha b hb => ?_⟩
    rw [List.mem_singleton] at hb
    rintro rfl
    exact h (hb ▸ ha)⟩

/-- The table of the rows, if their identifiers are distinct. -/
def ofRows (rows : List Descriptor) : Except TableFault OptionTable := rows.foldlM insert? empty

def find? (t : OptionTable) (id : OptionId) : Option Descriptor := t.rows.find? (·.id = id)

/-- The row with an identifier, which should be there. -/
def get (t : OptionTable) (id : OptionId) : Except TableFault Descriptor :=
  match t.find? id with
  | some d => .ok d
  | none => .error (.absent id)

def nameOf (t : OptionTable) (id : OptionId) : Text := ((t.find? id).map (·.name)).getD []

def listed (t : OptionTable) : List Descriptor := t.rows.mergeSort (fun a b => a.id.number ≤ b.id.number)

/-- The order in which rows are tried: longer names first, by identifier among names of one length. -/
def before (a b : Descriptor) : Bool :=
  b.name.length < a.name.length || (a.name.length = b.name.length && a.id.number ≤ b.id.number)

/-- The rows that tokens are matched against, in the order in which they are tried. -/
def matchable (t : OptionTable) : List Descriptor := (t.rows.filter (·.isMatchable)).mergeSort before

/-- The row reached from `d` through rows among `unseen`, each left at most once. -/
def follow (t : OptionTable) (unseen : List OptionId) (d : Descriptor) : Except TableFault Descriptor :=
  match d.standsFor with
  | none => .ok d
  | some target =>
    if _h : d.id ∈ unseen then
      match t.find? target with
      | some next => t.follow (unseen.erase d.id) next
      | none => .error (.absent target)
    else .ok d
termination_by unseen.length
decreasing_by
  have := List.length_pos_of_mem _h
  rw [List.length_erase_of_mem _h]
  omega

/-- The row that `d` stands for in the end. -/
def resolve (t : OptionTable) (d : Descriptor) : Except TableFault Descriptor := t.follow OptionId.all d

end OptionTable
end ScriptDriver.CommandLine
