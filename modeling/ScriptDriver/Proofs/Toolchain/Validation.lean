import Mathlib.Data.List.ReduceOption
import ScriptDriver.Proofs.Toml.Integers
import ScriptDriver.Toolchain.Load
/-!
# Validation — what a document makes of a toolchain

A document with two sections is checked item by item.  What is wrong with it is a list of offences, in the order of the
checks; it is loaded if there are none, and otherwise the first one is reported (`ofDocument_eq`).  An offence that is
shown with its value can be reported only if every integer in the value can be written.
-/
namespace ScriptDriver

namespace Toolchain

open File (Path)
open Toml (Table Value)

/-! ## Offences -/

/-- Something wrong with the items of a document. -/
inductive Offence where
  | unfit (item : Text) (kind : Kind) (value : Value)
  /-- A feature that is no string. -/
  | features

/-- What is reported of an offence; a value that cannot be spelled is reported as that. -/
def Offence.fault (path : Path) : Offence → Fault
  | .features => .unusable path .features
  | .unfit item kind value =>
    match value.spelling with
    | .ok shown => .unusable path (.kind item kind shown)
    | .error e => .integer e

/-- The integers that have to be written to report an offence. -/
def Offence.integers : Offence → List Int
  | .features => []
  | .unfit _ _ value => value.integers

/-- **An offence can be reported** if the integers in its value can be written. -/
theorem fault_unusable_iff (path : Path) (o : Offence) :
    (∃ problem, o.fault path = .unusable path problem) ↔ Toml.Value.Writable o.integers := by
  cases o with
  | features => exact ⟨fun _ _ h => absurd h List.not_mem_nil, fun _ => ⟨_, rfl⟩⟩
  | unfit item kind value =>
    rw [Offence.integers, ← Toml.Value.spelling_ok_iff, Offence.fault]
    cases value.spelling <;> simp

def Kind.accepts : Kind → Value → Bool
  | .string, v => v.string?.isSome
  | .integer, v => v.integer?.isSome
  | .list, v => v.items?.isSome

def kindOffence? (table : Table) (name : Text) (kind : Kind) : Option Offence :=
  (table.get? name).bind fun v => if kind.accepts v then none else some (.unfit name kind v)

def featureOffence? (table : Table) : Option Offence :=
  ((table.get? "features").bind Value.items?).bind fun items =>
    if items.all (·.string?.isSome) then none else some .features

/-- **All that is wrong with the items of a document**, in the order in which it is checked. -/
def offences (target compiler : Table) : List Offence :=
  [kindOffence? target "features" .list, featureOffence? target, kindOffence? target "triple" .string,
    kindOffence? target "cpu" .string, kindOffence? target "api" .integer, kindOffence? compiler "command" .string,
    kindOffence? compiler "timeout" .integer].reduceOption

def given {α : Type} (table : Table) (name : Text) (view : Value → Option α) (usual : α) : α :=
  ((table.get? name).bind view).getD usual

def givenFeatures (table : Table) : List Text :=
  (given table "features" Value.items? (({} : Target).features.map .string)).filterMap Value.string?

/-- The toolchain that two sections say. -/
def ofSections (path : Path) (target compiler : Table) : Toolchain :=
  { path := some path
    target := ⟨given target "triple" Value.string? ({} : Target).triple, given target "cpu" Value.string? ({} : Target).cpu,
      givenFeatures target⟩
    targetApi := given target "api" Value.integer? usualApi
    command := given compiler "command" Value.string? ({} : Toolchain).command
    timeout := given compiler "timeout" Value.integer? ({} : Toolchain).timeout }

/-! ## The integers that are shown -/

section
variable {P : Int → Prop} {table : Table} {o : Offence}

theorem kindOffence?_fine {name : Text} {kind : Kind} (h : kindOffence? table name kind = some o) (ht : table.Fine P) :
    ∀ n ∈ o.integers, P n := by
  obtain ⟨v, hget, hv⟩ := Option.bind_eq_some_iff.1 h
  split at hv
  · cases hv
  · cases hv
    exact ht.get? hget

theorem featureOffence?_eq_some (h : featureOffence? table = some o) : o = .features := by
  obtain ⟨items, -, hitems⟩ := Option.bind_eq_some_iff.1 h
  split at hitems
  · cases hitems
  · cases hitems
    rfl

/-- **What is shown of an offence** is in the sections. -/
theorem offences_fine {target compiler : Table} (htarget : target.Fine P) (hcompiler : compiler.Fine P)
    (h : o ∈ offences target compiler) : ∀ n ∈ o.integers, P n := by
  simp only [offences, List.reduceOption_mem_iff, List.mem_cons, List.not_mem_nil, or_false] at h
  rcases h with h | h | h | h | h | h | h
  case inr.inl =>
    obtain rfl := featureOffence?_eq_some h.symm
    exact List.forall_mem_nil _
  all_goals first
    | exact kindOffence?_fine h.symm htarget
    | exact kindOffence?_fine h.symm hcompiler

theorem section?_fine {document : Table} {name : Text} (h : section? document name = some table)
    (hdocument : document.Fine P) : table.Fine P := by
  unfold section? at h
  split at h
  · cases h
    exact Table.fine_nil
  · rename_i v hget
    have hv := hdocument.get? hget
    cases v <;> cases h
    exact Value.fine_table.1 hv

end

/-! ## Checking items -/

def outcome {α : Type} (path : Path) (offence : Option Offence) (a : α) : Except Fault α :=
  match offence with
  | some o => .error (o.fault path)
  | none => .ok a

theorem item_eq {α : Type} (path : Path) (table : Table) (name : Text) {kind : Kind} {view : Value → Option α} (usual : α)
    (hview : ∀ v, (view v).isSome = kind.accepts v) :
    item path table name kind view usual = outcome path (kindOffence? table name kind) (given table name view usual) := by
  unfold item kindOffence? given
  cases table.get? name with
  | none => rfl
  | some v =>
    have hv := hview v
    cases hseen : view v with
    | some a =>
      rw [hseen] at hv
      simp [← hv, hseen, outcome]
    | none =>
      rw [hseen] at hv
      simp only [Option.bind_some, ← hv, Option.isSome_none, Bool.false_eq_true, if_false, outcome, Offence.fault, hseen]
      cases v.spelling <;> rfl

theorem mapM_string? (items : List Value) : items.mapM Value.string? =
    if items.all (·.string?.isSome) then some (items.filterMap Value.string?) else none := by
  induction items with
  | nil => rfl
  | cons v rest ih =>
    rw [List.mapM_cons, ih]
    cases hv : v.string? with
    | none => simp [hv]
    | some t => by_cases hrest : rest.all (·.string?.isSome) = true <;> simp [hv, hrest]

theorem featuresItem_eq (path : Path) (table : Table) : featuresItem path table =
    outcome path ((kindOffence? table "features" .list).or (featureOffence? table)) (givenFeatures table) := by
  unfold featuresItem featureOffence? givenFeatures
  rw [item_eq path table "features" _ fun _ => rfl]
  cases hkind : kindOffence? table "features" .list with
  | some o => rfl
  | none =>
    simp only [outcome, mapM_string?, Option.none_or]
    unfold given
    cases (table.get? "features").bind Value.items? with
    | none => rfl
    | some items =>
      simp only [Option.bind_some, Option.getD_some]
      by_cases hall : items.all (·.string?.isSome) = true
      · simp only [hall, if_true]
      · simp only [hall]
        rfl

/-- Checks that follow each other: the first offence is the one that is reported. -/
theorem bind_outcome {α β : Type} {path : Path} {o o' : Option Offence} {a : α} {b : β} {f : α → Except Fault β}
    (h : f a = outcome path o' b) : (outcome path o a >>= f) = outcome path (o.or o') b := by
  cases o with
  | none => exact h
  | some o => rfl

theorem head?_reduceOption {α : Type} (o : Option α) (rest : List (Option α)) :
    (o :: rest).reduceOption.head? = o.or rest.reduceOption.head? := by
  cases o <;> rfl

/-- **A document is loaded if nothing is wrong with its items**, and otherwise the first offence is reported. -/
theorem ofDocument_eq (path : Path) {document target compiler : Table} (htarget : section? document "target" = some target)
    (hcompiler : section? document "compiler" = some compiler) : ofDocument path document =
      outcome path (offences target compiler).head? (ofSections path target compiler) := by
  unfold ofDocument offences
  simp only [htarget, hcompiler, head?_reduceOption]
  rw [featuresItem_eq, ← Option.or_assoc]
  refine bind_outcome ?_
  rw [item_eq path target "triple" _ fun _ => rfl]
  refine bind_outcome ?_
  rw [item_eq path target "cpu" _ fun _ => rfl]
  refine bind_outcome ?_
  rw [item_eq path target "api" _ fun _ => rfl]
  refine bind_outcome ?_
  rw [item_eq path compiler "command" _ fun _ => rfl]
  refine bind_outcome ?_
  rw [item_eq path compiler "timeout" _ fun _ => rfl]
  exact bind_outcome rfl

end Toolchain
end ScriptDriver
