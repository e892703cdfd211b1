import ScriptDriver.ResponseFile.Expansion
/-!
# Stack — the files that an expander has open

An expander goes through its arguments with a stack of the files that it is in the middle of.  All nesting levels share
this one stack, and so do all command lines that the expander is given: a file is put on top before its text is gone
through, and the top is taken off afterwards, also when a fault makes the expansion stop there.  What comes of a command
line can be told without a stack; that is what `Expander` does.
-/
namespace ScriptDriver.ResponseFile

open File (Location)

/-- An expander with the files that it has open, the last one opened first. -/
structure OpenExpander extends Expander where
  opened : List Location := []

/-- A command line being expanded: the expander, and the arguments made so far. -/
structure Progress extends OpenExpander where
  made : List Text := []

namespace Progress

def keep (p : Progress) (arg : Text) : Progress := { p with made := p.made ++ [arg] }

def skip (p : Progress) (name : Text) : Progress :=
  { p with skipped := p.skipped ++ [name], made := p.made ++ [referenceTo name] }

def push (p : Progress) (l : Location) : Progress := { p with opened := l :: p.opened }

def pop (p : Progress) : Progress := { p with opened := p.opened.tail }

/-- Whether a file may not be opened: it is open already, or as many are as the depth allows. -/
def refuses (p : Progress) (l : Location) : Bool := p.opened.contains l || p.depth ≤ p.opened.length

/-- How many more files may be opened. -/
def room (p : Progress) : Nat := p.depth.toNat - p.opened.length

theorem room_push (p : Progress) (l : Location) : (p.push l).room = p.room - 1 := by
  simp only [room, push, List.length_cons, Nat.sub_add_eq]

theorem refuses_iff {p : Progress} {l : Location} : p.refuses l = true ↔ p.room = 0 ∨ l ∈ p.opened := by
  have hroom : p.depth ≤ p.opened.length ↔ p.room = 0 := by
    unfold room
    omega
  simp only [refuses, Bool.or_eq_true, List.contains_iff_mem, decide_eq_true_eq, hroom, or_comm]

/-- What some arguments come to, and the fault that stopped them.  The same files are open afterwards, in both cases. -/
@[ext]
structure Outcome (p : Progress) where
  fault : Option File.Fault
  after : Progress
  depth_eq : after.depth = p.depth
  opened_eq : after.opened = p.opened

theorem Outcome.room_eq {p : Progress} (a : Outcome p) : a.after.room = p.room := by
  rw [room, a.depth_eq, a.opened_eq, room]

def Outcome.andThen {p : Progress} (a : Outcome p) (b : Outcome a.after) : Outcome p where
  fault := b.fault
  after := b.after
  depth_eq := b.depth_eq.trans a.depth_eq
  opened_eq := b.opened_eq.trans a.opened_eq

mutual

def expandArg (lookup : Lookup) (p : Progress) (arg : Text) : Outcome p :=
  match reference? arg with
  | none => ⟨none, p.keep arg, rfl, rfl⟩
  | some name =>
    match lookup name with
    | .unreadable => ⟨none, p.keep arg, rfl, rfl⟩
    | .invalid e => ⟨some e, p, rfl, rfl⟩
    | .file l text =>
      if p.refuses l then ⟨none, p.skip name, rfl, rfl⟩
      else
        let inner := expandArgs lookup (p.push l) (tokens text)
        -- whether or not there is a fault, the file is open no longer
        ⟨inner.fault, inner.after.pop, inner.depth_eq, congrArg List.tail inner.opened_eq⟩
termination_by (p.room, 0)
decreasing_by
  rename_i h
  have hroom : p.room ≠ 0 := fun h0 => h (refuses_iff.2 (.inl h0))
  exact Prod.Lex.left _ _ (by rw [room_push]; omega)

/-- Goes through arguments up to the first fault. -/
def expandArgs (lookup : Lookup) (p : Progress) (args : List Text) : Outcome p :=
  match args with
  | [] => ⟨none, p, rfl, rfl⟩
  | arg :: args =>
    let first := expandArg lookup p arg
    match first.fault with
    | some _ => first
    | none => first.andThen (expandArgs lookup first.after args)
termination_by (p.room, args.length)
decreasing_by
  · exact Prod.Lex.right _ (Nat.zero_lt_succ _)
  · rw [first.room_eq]
    exact Prod.Lex.right _ (Nat.lt_succ_self _)

end

end Progress

/-- Expands a command line with what is open, and gives the expander back also after a fault. -/
def OpenExpander.expand (x : OpenExpander) (lookup : Lookup) (args : List Text) :
    Except File.Fault (List Text) × OpenExpander :=
  let r := Progress.expandArgs lookup { x with made := [] } args
  (match r.fault with
    | none => .ok r.after.made
    | some e => .error e,
   r.after.toOpenExpander)

end ScriptDriver.ResponseFile
