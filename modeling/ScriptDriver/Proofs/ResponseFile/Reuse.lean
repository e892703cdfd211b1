import ScriptDriver.Proofs.ResponseFile.Nesting
import ScriptDriver.ResponseFile.Stack
/-!
# Reuse — one expander for many command lines

However an expansion ends, the files that it opened are open no longer.  So going through arguments with a stack comes to
what expanding them without one does (`expandArgs_eq`), and an expander treats every command line as a new one would;
only the names of the references that it skipped add up (`expandAll_fresh`).
-/
namespace ScriptDriver.ResponseFile

open File (Location)

variable {lookup : Lookup}

/-! ## With a stack and without -/

namespace Progress

/-- The progress after what an expansion adds to it. -/
def plus (p : Progress) (e : Expansion) : Progress :=
  { p with skipped := p.skipped ++ e.skipped, made := p.made ++ e.args }

def Outcome.of (p : Progress) (e : Expansion) : Outcome p := ⟨e.fault, p.plus e, rfl, rfl⟩

theorem Outcome.of_andThen {p : Progress} {a b : Expansion} (h : a.fault = none) :
    (Outcome.of p a).andThen (.of _ b) = .of p (a.andThen b) := by
  rw [Expansion.andThen_of_ok h]
  simp only [of, andThen, plus, List.append_assoc]

section
variable {p : Progress} {arg : Text} {args : List Text}

theorem expandArgs_of_fault {e : File.Fault} (h : (expandArg lookup p arg).fault = some e) :
    expandArgs lookup p (arg :: args) = expandArg lookup p arg := by
  rw [expandArgs]
  simp only [h]

theorem expandArgs_of_ok (h : (expandArg lookup p arg).fault = none) :
    expandArgs lookup p (arg :: args) =
      (expandArg lookup p arg).andThen (expandArgs lookup (expandArg lookup p arg).after args) := by
  rw [expandArgs]
  simp only [h]

theorem expandArgs_nil : expandArgs lookup p [] = .of p .nothing := by
  rw [expandArgs]
  simp only [Outcome.of, plus, Expansion.nothing, List.append_nil]

theorem expandArgs_single : expandArgs lookup p [arg] = expandArg lookup p arg := by
  cases h : (expandArg lookup p arg).fault with
  | some e => exact expandArgs_of_fault h
  | none =>
    rw [expandArgs_of_ok h, expandArgs]
    ext1
    · exact h.symm
    · rfl

end

/-- **The stack is told by the arguments alone**: going through them comes to what expanding them does, in the room that
the stack leaves, with the files that are on it.  In the induction the stack is pushed where a file is entered, and the
outcome of its text has the same stack, which is popped. -/
theorem expandArgs_eq (p : Progress) (args : List Text) :
    expandArgs lookup p args = .of p (expandWithin lookup p.room p.opened args) := by
  suffices h : ∀ q : Progress, q.room = p.room → q.opened = p.opened →
      expandArgs lookup q args = .of q (expandWithin lookup p.room p.opened args) from h p rfl rfl
  induction p.room, p.opened, args using expandWithin_induction lookup with
  | nil room opened => exact fun q _ _ => expandArgs_nil
  | cons room opened arg args a b iha ihb =>
    intro q hroom hopened
    have ha : expandArg lookup q arg = .of q a := expandArgs_single.symm.trans (iha q hroom hopened)
    cases hf : a.fault with
    | some e =>
      rw [expandArgs_of_fault (e := e) (by rw [ha]; exact hf), ha, Expansion.andThen_of_fault hf]
    | none =>
      rw [expandArgs_of_ok (by rw [ha]; exact hf), ha, ← Outcome.of_andThen hf]
      exact congrArg _ (ihb _ hroom hopened)
  | plain room opened arg h =>
    intro q _ _
    rw [expandArgs_single, expandArg, h]
    simp only [Outcome.of, plus, Expansion.keep, List.append_nil, keep]
  | unreadable room opened name h =>
    intro q _ _
    rw [expandArgs_single, expandArg, reference?_referenceTo]
    simp only [h, Outcome.of, plus, Expansion.keep, List.append_nil, keep]
  | invalid room opened name e h =>
    intro q _ _
    rw [expandArgs_single, expandArg, reference?_referenceTo]
    simp only [h, Outcome.of, plus, Expansion.stop, List.append_nil]
  | skipped room opened name l text h hs =>
    intro q hroom hopened
    have hr : q.refuses l = true := refuses_iff.2 (hroom ▸ hopened ▸ hs)
    rw [expandArgs_single, expandArg, reference?_referenceTo]
    simp only [h, hr, if_true, Outcome.of, plus, Expansion.skip, skip]
  | entered room opened name l text e h hl ih =>
    intro q hroom hopened
    have hr : q.refuses l = false := by
      rw [← Bool.not_eq_true, refuses_iff, hroom, hopened]
      simp [hl]
    have hinner : expandArgs lookup (q.push l) (tokens text) = .of (q.push l) e :=
      ih _ (by rw [room_push, hroom, Nat.add_sub_cancel]) (congrArg (l :: ·) hopened)
    rw [expandArgs_single, expandArg, reference?_referenceTo]
    simp only [h, hr, Bool.false_eq_true, if_false, hinner]
    rfl

end Progress

/-! ## One call after the other -/

namespace OpenExpander

/-- An expander that has not been used. -/
def fresh (depth : Int) : OpenExpander := { depth }

def skipping (x : OpenExpander) (names : List Text) : OpenExpander := { x with skipped := x.skipped ++ names }

/-- What one command line after the other comes to. -/
def expandAll (lookup : Lookup) (x : OpenExpander) : List (List Text) → List (Except File.Fault (List Text)) × OpenExpander
  | [] => ([], x)
  | line :: lines =>
    match x.expand lookup line with
    | (result, x) =>
      match x.expandAll lookup lines with
      | (results, x) => (result :: results, x)

variable {x : OpenExpander}

theorem skipping_skipping (names more : List Text) : (x.skipping names).skipping more = x.skipping (names ++ more) := by
  simp only [skipping, List.append_assoc]

/-- An expander with an empty stack comes to what can be told without one, and its stack is empty afterwards. -/
theorem expand_eq (h : x.opened = []) (line : List Text) :
    x.expand lookup line =
      ((ResponseFile.expand lookup x.depth line).result, x.skipping (ResponseFile.expand lookup x.depth line).skipped) := by
  have hroom : ({ x with made := [] } : Progress).room = x.depth.toNat := by
    simp only [Progress.room, h, List.length_nil, Nat.sub_zero]
  unfold expand
  simp only [Progress.expandArgs_eq, hroom, h]
  rfl

theorem expand_toExpander (h : x.opened = []) (line : List Text) :
    x.expand lookup line = ((x.toExpander.expand lookup line).1,
      { x with toExpander := (x.toExpander.expand lookup line).2 }) :=
  expand_eq h line

/-- A call comes to what it does for an expander that has not been used, and adds what that one skips. -/
theorem expand_eq_fresh (h : x.opened = []) (line : List Text) :
    x.expand lookup line = (((fresh x.depth).expand lookup line).1,
      x.skipping ((fresh x.depth).expand lookup line).2.skipped) := by
  rw [expand_eq h, expand_eq (x := fresh x.depth) rfl]
  rfl

theorem expandAll_eq_fresh : ∀ (lines : List (List Text)) {x : OpenExpander}, x.opened = [] →
    x.expandAll lookup lines = (lines.map fun line => ((fresh x.depth).expand lookup line).1,
      x.skipping (lines.flatMap fun line => ((fresh x.depth).expand lookup line).2.skipped))
  | [], x, _ => by
    rw [expandAll, List.map_nil, List.flatMap_nil, skipping, List.append_nil]
  | line :: lines, x, h => by
    rw [expandAll, expand_eq_fresh h]
    simp only
    rw [expandAll_eq_fresh lines (x := x.skipping _) h, skipping_skipping]
    rfl

theorem fresh_append {depth : Int} {a b out : List Text} :
    (fresh depth).expand lookup (a ++ b) = (.ok out, x) ↔
      ∃ outA xA outB xB, (fresh depth).expand lookup a = (.ok outA, xA) ∧ (fresh depth).expand lookup b = (.ok outB, xB) ∧
        out = outA ++ outB ∧ x = (fresh depth).skipping (xA.skipped ++ xB.skipped) := by
  have hempty : (fresh depth).opened = [] := rfl
  rw [expand_eq hempty, expand_eq hempty, expand_eq hempty]
  simp only [ResponseFile.expand, expandWithin_append, Prod.mk.injEq, Expansion.result_eq_ok,
    Expansion.fault_andThen_none]
  constructor
  · rintro ⟨⟨⟨ha, hb⟩, rfl⟩, rfl⟩
    rw [Expansion.andThen_of_ok ha]
    exact ⟨_, _, _, _, ⟨⟨ha, rfl⟩, rfl⟩, ⟨⟨hb, rfl⟩, rfl⟩, rfl, rfl⟩
  · rintro ⟨_, _, _, _, ⟨⟨ha, rfl⟩, rfl⟩, ⟨⟨hb, rfl⟩, rfl⟩, rfl, rfl⟩
    rw [Expansion.andThen_of_ok ha]
    exact ⟨⟨⟨ha, hb⟩, rfl⟩, rfl⟩

/-- **An expander can be used again and again.**  Between two command lines its stack is empty, whatever the ones before
came to; every command line comes to what it comes to for an expander that has not been used; and the names of skipped
references add up, those before a fault included.  A command line that nothing stops comes to what its parts come to. -/
theorem expandAll_fresh (lookup : Lookup) (depth : Int) :
    (∀ lines, ((fresh depth).expandAll lookup lines).2.opened = []) ∧
    (∀ lines, ((fresh depth).expandAll lookup lines).1 = lines.map fun line => ((fresh depth).expand lookup line).1) ∧
    (∀ lines, ((fresh depth).expandAll lookup lines).2.skipped =
      lines.flatMap fun line => ((fresh depth).expand lookup line).2.skipped) ∧
    ∀ a b out x, (fresh depth).expand lookup (a ++ b) = (.ok out, x) ↔
      ∃ outA xA outB xB, (fresh depth).expand lookup a = (.ok outA, xA) ∧ (fresh depth).expand lookup b = (.ok outB, xB) ∧
        out = outA ++ outB ∧ x = (fresh depth).skipping (xA.skipped ++ xB.skipped) := by
  have hall : ∀ lines, (fresh depth).expandAll lookup lines = (lines.map fun line => ((fresh depth).expand lookup line).1,
      (fresh depth).skipping (lines.flatMap fun line => ((fresh depth).expand lookup line).2.skipped)) :=
    fun lines => expandAll_eq_fresh lines rfl
  refine ⟨fun lines => ?_, fun lines => ?_, fun lines => ?_, fun a b out x => fresh_append⟩
  · rw [hall]
    rfl
  · rw [hall]
  · rw [hall]
    rfl

end OpenExpander
end ScriptDriver.ResponseFile
