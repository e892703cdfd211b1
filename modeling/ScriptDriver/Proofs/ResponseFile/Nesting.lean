import ScriptDriver.ResponseFile.Expansion
/-!
# Nesting — one argument of an expansion

What an expansion makes of a command line is what it makes of each argument, in order; and there are five things that
can become of one argument.  All that is proved about expansions is proved from these equations.
-/
namespace ScriptDriver.ResponseFile

open File (Location)

@[simp] theorem reference?_referenceTo (name : Text) : reference? (referenceTo name) = some name := rfl

theorem reference?_eq_some {arg name : Text} : reference? arg = some name ↔ arg = referenceTo name := by
  constructor
  · intro h
    unfold reference? at h
    split at h
    · cases h
      rfl
    · cases h
  · rintro rfl
    rfl

@[simp] theorem Expansion.andThen_nothing (a : Expansion) : a.andThen .nothing = a := by
  unfold Expansion.andThen Expansion.nothing
  cases hf : a.fault with
  | some e => rfl
  | none =>
    simp only [List.append_nil]
    rw [← hf]

theorem Expansion.andThen_of_ok {a b : Expansion} (h : a.fault = none) :
    a.andThen b = ⟨a.args ++ b.args, a.skipped ++ b.skipped, b.fault⟩ := by
  unfold Expansion.andThen
  rw [h]

theorem Expansion.andThen_of_fault {a b : Expansion} {e : File.Fault} (h : a.fault = some e) : a.andThen b = a := by
  unfold Expansion.andThen
  rw [h]

theorem Expansion.andThen_assoc (a b c : Expansion) : (a.andThen b).andThen c = a.andThen (b.andThen c) := by
  cases ha : a.fault with
  | some e => rw [andThen_of_fault ha, andThen_of_fault ha, andThen_of_fault ha]
  | none =>
    rw [andThen_of_ok ha]
    cases hb : b.fault with
    | some e =>
      rw [andThen_of_fault hb, andThen_of_fault (e := e) rfl, andThen_of_ok ha, hb]
    | none =>
      rw [andThen_of_ok hb, andThen_of_ok rfl, andThen_of_ok ha, List.append_assoc, List.append_assoc]

theorem Expansion.fault_andThen_none {a b : Expansion} :
    (a.andThen b).fault = none ↔ a.fault = none ∧ b.fault = none := by
  cases ha : a.fault with
  | some e =>
    rw [andThen_of_fault ha, ha]
    exact ⟨nofun, nofun⟩
  | none =>
    rw [andThen_of_ok ha]
    exact ⟨fun h => ⟨rfl, h⟩, fun h => h.2⟩

/-- What an expansion returns, unless a fault stopped it. -/
def Expansion.result (e : Expansion) : Except File.Fault (List Text) :=
  match e.fault with
  | none => .ok e.args
  | some fault => .error fault

theorem Expansion.result_eq_ok {e : Expansion} {out : List Text} : e.result = .ok out ↔ e.fault = none ∧ e.args = out := by
  unfold result
  cases e.fault <;> simp

theorem Expander.expand_eq (x : Expander) (lookup : Lookup) (args : List Text) :
    x.expand lookup args = ((ResponseFile.expand lookup x.depth args).result,
      { x with skipped := x.skipped ++ (ResponseFile.expand lookup x.depth args).skipped }) := rfl

variable {lookup : Lookup} {room : Nat} {opened : List Location}

@[simp] theorem expandWithin_nil : expandWithin lookup room opened [] = .nothing := by
  cases room <;> rfl

theorem expandWithin_cons (arg : Text) (args : List Text) :
    expandWithin lookup room opened (arg :: args) =
      (expandWithin lookup room opened [arg]).andThen (expandWithin lookup room opened args) := by
  cases room <;> simp only [expandWithin, Expansion.each, Expansion.andThen_nothing]

theorem expandWithin_append (b : List Text) : ∀ a : List Text,
    expandWithin lookup room opened (a ++ b) =
      (expandWithin lookup room opened a).andThen (expandWithin lookup room opened b)
  | [] => by
    rw [expandWithin_nil]
    rfl
  | arg :: a => by
    rw [List.cons_append, expandWithin_cons, expandWithin_append b a, expandWithin_cons arg a, Expansion.andThen_assoc]

/-- Arguments come to what one of them comes to, between what those before it and those after it come to. -/
theorem expandWithin_around {a b : List Text} {arg : Text}
    (h : (expandWithin lookup room opened (a ++ arg :: b)).fault = none) :
    (expandWithin lookup room opened [arg]).fault = none ∧
    (expandWithin lookup room opened (a ++ arg :: b)).args =
      (expandWithin lookup room opened a).args ++ ((expandWithin lookup room opened [arg]).args ++
        (expandWithin lookup room opened b).args) := by
  rw [expandWithin_append (arg :: b) a, expandWithin_cons arg b] at h ⊢
  obtain ⟨ha, hb⟩ := Expansion.fault_andThen_none.1 h
  obtain ⟨harg, -⟩ := Expansion.fault_andThen_none.1 hb
  rw [Expansion.andThen_of_ok ha, Expansion.andThen_of_ok harg]
  exact ⟨harg, rfl⟩

theorem expandWithin_plain {arg : Text} (h : reference? arg = none) :
    expandWithin lookup room opened [arg] = .keep arg := by
  cases room <;> simp only [expandWithin, Expansion.each, Expansion.andThen_nothing, expandArg, h]

theorem expandWithin_unreadable {name : Text} (h : lookup name = .unreadable) :
    expandWithin lookup room opened [referenceTo name] = .keep (referenceTo name) := by
  cases room <;>
    simp only [expandWithin, Expansion.each, Expansion.andThen_nothing, expandArg, reference?_referenceTo, h]

theorem expandWithin_invalid {name : Text} {e : File.Fault} (h : lookup name = .invalid e) :
    expandWithin lookup room opened [referenceTo name] = .stop e := by
  cases room <;>
    simp only [expandWithin, Expansion.each, Expansion.andThen_nothing, expandArg, reference?_referenceTo, h]

/-- A reference is skipped when there is no more room, and when it leads to a file that is being expanded. -/
theorem expandWithin_skipped {name : Text} {l : Location} {text : Text} (h : lookup name = .file l text)
    (hs : room = 0 ∨ l ∈ opened) : expandWithin lookup room opened [referenceTo name] = .skip name := by
  cases room with
  | zero =>
    simp only [expandWithin, Expansion.each, Expansion.andThen_nothing, expandArg, reference?_referenceTo, h,
      Option.getD_none]
  | succ room =>
    have hl : opened.contains l = true := by simpa using hs
    simp only [expandWithin, Expansion.each, Expansion.andThen_nothing, expandArg, reference?_referenceTo, h, hl,
      if_true, Option.getD_none]

/-- Any other reference to a file is replaced by the expansion of what is written there. -/
theorem expandWithin_entered {name : Text} {l : Location} {text : Text} (h : lookup name = .file l text)
    (hl : l ∉ opened) :
    expandWithin lookup (room + 1) opened [referenceTo name] =
      expandWithin lookup room (l :: opened) (tokens text) := by
  have hc : opened.contains l = false := by simpa using hl
  simp only [expandWithin, Expansion.each, Expansion.andThen_nothing, expandArg, reference?_referenceTo, h, hc,
    Bool.false_eq_true, if_false, Option.getD_some]

variable (lookup) in
/-- **What holds of every expansion.**  There is a case for each thing that can become of an argument; in the last one it
holds of the text of the file, with that file open and less room. -/
@[elab_as_elim]
theorem expandWithin_induction {motive : Nat → List Location → List Text → Expansion → Prop}
    (nil : ∀ room opened, motive room opened [] .nothing)
    (cons : ∀ room opened arg args a b, motive room opened [arg] a → motive room opened args b →
      motive room opened (arg :: args) (a.andThen b))
    (plain : ∀ room opened arg, reference? arg = none → motive room opened [arg] (.keep arg))
    (unreadable : ∀ room opened name, lookup name = .unreadable →
      motive room opened [referenceTo name] (.keep (referenceTo name)))
    (invalid : ∀ room opened name e, lookup name = .invalid e → motive room opened [referenceTo name] (.stop e))
    (skipped : ∀ room opened name l text, lookup name = .file l text → room = 0 ∨ l ∈ opened →
      motive room opened [referenceTo name] (.skip name))
    (entered : ∀ room opened name l text e, lookup name = .file l text → l ∉ opened →
      motive room (l :: opened) (tokens text) e → motive (room + 1) opened [referenceTo name] e)
    (room : Nat) (opened : List Location) (args : List Text) :
    motive room opened args (expandWithin lookup room opened args) := by
  induction room using Nat.strongRecOn generalizing opened args with
  | ind room ih =>
    have one : ∀ arg, motive room opened [arg] (expandWithin lookup room opened [arg]) := fun arg => by
      cases hr : reference? arg with
      | none =>
        rw [expandWithin_plain hr]
        exact plain room opened arg hr
      | some name =>
        obtain rfl := reference?_eq_some.1 hr
        cases hn : lookup name with
        | unreadable =>
          rw [expandWithin_unreadable hn]
          exact unreadable room opened name hn
        | invalid e =>
          rw [expandWithin_invalid hn]
          exact invalid room opened name e hn
        | file l text =>
          by_cases hs : room = 0 ∨ l ∈ opened
          · rw [expandWithin_skipped hn hs]
            exact skipped room opened name l text hn hs
          · obtain ⟨h0, hl⟩ := not_or.1 hs
            obtain ⟨room, rfl⟩ := Nat.exists_eq_succ_of_ne_zero h0
            rw [expandWithin_entered hn hl]
            exact entered room opened name l text _ hn hl (ih room (Nat.lt_succ_self room) _ _)
    induction args with
    | nil =>
      rw [expandWithin_nil]
      exact nil room opened
    | cons arg args ihargs =>
      rw [expandWithin_cons]
      exact cons room opened arg args _ _ (one arg) ihargs

end ScriptDriver.ResponseFile
