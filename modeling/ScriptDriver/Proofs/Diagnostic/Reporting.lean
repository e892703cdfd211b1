import ScriptDriver.Diagnostic.Engine
/-!
# Reporting — problems whose message can be made

A message can be made if the problem has an argument for every place of its pattern.  Such problems are reported without
fail: an engine keeps all of them, in order, and whether the run has failed is read off what it keeps.
-/
namespace ScriptDriver

/-- The number of arguments that the message of a problem needs. -/
def DiagnosticId.arity : DiagnosticId → Nat
  | .noInputFiles => 0
  | .missingArgument | .unknownArgument | .responseFileCycle => 1
  | .notAllowedWith | .invalidValue | .invalidInteger => 2

namespace Diagnostic

/-- **A problem with an argument for every place of its message.** -/
def Complete (d : Diagnostic) : Prop := d.id.arity ≤ d.args.length

/-- Whether a piece of a pattern can be filled with `n` arguments. -/
def fits (n : Nat) : Pattern.Piece → Bool
  | .fixed _ => true
  | .argument index => index < n

theorem fill_of_fits {args : List Argument} : ∀ pieces : List Pattern.Piece,
    (∀ piece ∈ pieces, fits args.length piece = true) → ∃ t, fill args pieces = .ok t
  | [], _ => ⟨[], rfl⟩
  | .fixed t :: rest, h => by
    obtain ⟨u, hu⟩ := fill_of_fits rest fun piece hp => h piece (List.mem_cons_of_mem _ hp)
    exact ⟨t ++ u, by rw [fill, hu]⟩
  | .argument index :: rest, h => by
    obtain ⟨u, hu⟩ := fill_of_fits rest fun piece hp => h piece (List.mem_cons_of_mem _ hp)
    have hlt : index < args.length := by simpa [fits] using h _ List.mem_cons_self
    refine ⟨args[index].shown ++ u, ?_⟩
    rw [fill, List.getElem?_eq_getElem hlt]
    simp only [hu]

theorem fits_mono {n m : Nat} (h : n ≤ m) : ∀ {piece : Pattern.Piece}, fits n piece = true → fits m piece = true
  | .fixed _, _ => rfl
  | .argument index, hp => by
    have hlt : index < n := by simpa [fits] using hp
    simpa [fits] using Nat.lt_of_lt_of_le hlt h

/-- The number of places in the pattern of a problem; that of a missing value has one for the plural ending too. -/
def places (id : DiagnosticId) : Nat := if id = .missingArgument then 3 else id.arity

theorem pattern_fits (id : DiagnosticId) : ∀ piece ∈ id.pattern, fits (places id) piece = true := by
  cases id <;> decide

/-- **The message of a complete problem can be made.** -/
theorem message_of_complete {d : Diagnostic} (h : d.Complete) : ∃ t, d.message = .ok t := by
  unfold Complete at h
  unfold message
  by_cases hm : d.id = .missingArgument
  · rw [hm] at h
    rw [if_pos hm]
    cases ha : d.args with
    | nil =>
      rw [ha] at h
      exact absurd h (by decide)
    | cons option rest =>
      refine fill_of_fits d.id.pattern fun piece hp => ?_
      have hfits := pattern_fits d.id piece hp
      rw [places, if_pos hm] at hfits
      exact hfits
  · rw [if_neg hm]
    refine fill_of_fits d.id.pattern fun piece hp => fits_mono ?_ (pattern_fits d.id piece hp)
    rw [places, if_neg hm]
    exact h

namespace Engine

/-- A complete problem is kept, and nothing fails. -/
theorem add_of_complete (e : Engine) {d : Diagnostic} (h : d.Complete) :
    ∃ e', e.add d = (e', none) ∧ e'.reported = e.reported ++ [d] := by
  obtain ⟨t, ht⟩ := message_of_complete h
  unfold add
  cases e.printer with
  | none => exact ⟨_, rfl, rfl⟩
  | some p =>
    simp only [Printer.emit, ht]
    exact ⟨_, rfl, rfl⟩

/-- **Complete problems are all kept**, in the order in which they are reported. -/
theorem addAll_of_complete : ∀ (ds : List Diagnostic) (e : Engine), (∀ d ∈ ds, d.Complete) →
    ∃ e', e.addAll ds = (e', none) ∧ e'.reported = e.reported ++ ds
  | [], e, _ => ⟨e, rfl, (List.append_nil _).symm⟩
  | d :: ds, e, h => by
    obtain ⟨e₁, h₁, hr₁⟩ := e.add_of_complete (h d List.mem_cons_self)
    obtain ⟨e₂, h₂, hr₂⟩ := addAll_of_complete ds e₁ fun d' hd => h d' (List.mem_cons_of_mem d hd)
    refine ⟨e₂, ?_, ?_⟩
    · rw [addAll, h₁]
      exact h₂
    · rw [hr₂, hr₁, List.append_assoc]
      rfl

theorem failed_iff (e : Engine) : e.failed = true ↔ ∃ d ∈ e.reported, d.severity.fails = true := by
  unfold failed errors
  rw [decide_eq_true_eq, List.countP_pos_iff]

end Engine
end Diagnostic
end ScriptDriver
