import ScriptDriver.Proofs.Compiler.Holding
import ScriptDriver.Proofs.Driver.Handover
/-!
# Departure — compilers after a run or a block is left

A run, or a block in which a context is used, ends with no compiler in use.  Of the compilers that were made there, those
that were set up have been put away, each once, whatever failed; but one that could not be set up never is, though it
has been made and may hold something by then (`left_put_away`).
-/
namespace ScriptDriver

open Context (Reaches)
open ResponseFile (Expander ofDisk)

variable {X C E : Type}

/-- **The calls of a run, or of a context up to where a block of it has been left.** -/
inductive Left (kind : Toolchain → CompilerKind X C E) : List (Call E) → Prop where
  | run (d : Driver) (argv : List Text) (w : World X) :
      Left kind (d.run (fun t => (kind t).watched) argv (w.noted [])).world.outside.calls
  | block {t : Toolchain} {w : World X} {ctx : Context (Watched X E) (Nat × C)} {α : Type}
      (body : Context (Watched X E) (Nat × C) → Except E α × Context (Watched X E) (Nat × C))
      (h : Reaches (kind t) (.empty (w.noted [])) ctx) (hbody : Reaches (kind t) ctx (body ctx).2) :
      Left kind (ctx.within (kind t).watched body).2.calls

/-! ## Calls of a run -/

theorem compileOnce_orderly (kind : CompilerKind X C E) (target : Target) (batch : Batch) (w : World X) :
    Orderly (compileOnce kind.watched target batch (w.noted [])).2.outside.calls .idle := by
  rcases hmake : kind.make w with ⟨e | c, w₁⟩
  · rw [compileOnce_of_make_error (watched_make_error hmake)]
    exact Orderly.nil.next (.makeFails e)
  have hmade : Orderly ([] ++ [.make none] : List (Call E)) (.made 0) := Orderly.nil.next .make
  rcases hset : kind.setUp c target w₁ with ⟨e | d, w₂⟩
  · rw [compileOnce_of_setUp_error (watched_make_ok hmake) (watched_setUp_error hset)]
    exact hmade.next (.setUpFails 0 target e)
  have hready : Orderly ([] ++ [.make none] ++ [.setUp 0 target none] : List (Call E)) (.ready 0) :=
    hmade.next (.setUp 0 target)
  rcases hcompile : kind.compile d batch w₂ with ⟨result, w₃⟩
  rcases hput : kind.putAway d w₃ with ⟨fault, w₄⟩
  rw [compileOnce_of_compile (watched_make_ok hmake) (watched_setUp_ok hset) (watched_compile hcompile)
    (watched_putAway hput)]
  exact (hready.next (.compile 0 batch result)).next (.putAway 0 fault)

theorem serve_orderly (kind : CompilerKind X C E) (s : Driver.Stage) (settings : Settings) (inputs : List Text)
    (w : World X) :
    Orderly (Driver.serve kind.watched s settings inputs (w.noted [])).world.outside.calls .idle := by
  unfold Driver.serve
  cases Request.of s.engine.failed settings inputs with
  | nothing | help | version => exact .nil
  | inputs =>
    rcases hadd : s.engine.add (.of .noInputFiles []) with ⟨engine, _ | e⟩ <;> simp only [printedBy_noted] <;>
      exact .nil
  | compile =>
    have horderly := compileOnce_orderly kind settings.target (.of settings inputs) w
    rcases hcompile : compileOnce kind.watched settings.target (.of settings inputs) (w.noted []) with ⟨e | good, after⟩ <;>
      rw [hcompile] at horderly <;> exact horderly

theorem run_orderly (kind : Toolchain → CompilerKind X C E) (d : Driver) (argv : List Text) (w : World X) :
    Orderly (d.run (fun t => (kind t).watched) argv (w.noted [])).world.outside.calls .idle := by
  by_cases hnone : (d.run (fun t => (kind t).watched) argv (w.noted [])).world.outside.calls = []
  · rw [hnone]
    exact .nil
  · -- a run with calls makes them in serving a request
    obtain ⟨call, hcall⟩ := List.exists_mem_of_ne_nil _ hnone
    obtain ⟨t, args, x, inputs, s, w', -, -, -, -, hrun⟩ := run_served hcall
    rw [hrun]
    exact serve_orderly (kind t) s _ inputs w'

/-! ## Leaving -/

theorem Left.orderly {kind : Toolchain → CompilerKind X C E} {calls : List (Call E)} (h : Left kind calls) :
    Orderly calls .idle := by
  cases h with
  | run d argv w => exact run_orderly kind d argv w
  | @block t w ctx α body h hbody =>
    have hsound := hbody.sound (h.sound (Context.empty_sound w))
    rw [Context.within_context]
    exact Context.stage_of_none (Context.release_empties (kind t).watched _) ▸ Context.release_sound hsound

theorem countP_failsToSetUp {calls : List (Call E)} {n : Nat} :
    calls.countP (·.failsToSetUp n) = 0 ↔ ∀ target e, .setUp n target (some e) ∉ calls := by
  rw [List.countP_eq_zero]
  constructor
  · intro h target e hmem
    exact h _ hmem (decide_eq_true rfl)
  · intro h call hmem hfails
    unfold Call.failsToSetUp at hfails
    split at hfails
    · obtain rfl := of_decide_eq_true hfails
      exact h _ _ hmem
    · cases hfails

/-- **A compiler is put away on every way out, once, exactly if setting it up did not fail**, and else never: whatever it
was that made a run or a block end, and whatever it does when it is put away. -/
theorem left_put_away {kind : Toolchain → CompilerKind X C E} {calls : List (Call E)} (h : Left kind calls) {n : Nat}
    (made : Made calls n = true) :
    (calls.countP (·.putsAway n) = 1 ↔ ∀ target e, .setUp n target (some e) ∉ calls) ∧
    (calls.countP (·.putsAway n) = 0 ↔ ∃ target e, .setUp n target (some e) ∈ calls) := by
  have hset := h.orderly.set_up n
  have hput := h.orderly.put_away n
  rw [if_pos made, if_neg Stage.noConfusion] at hset
  rw [if_neg Stage.noConfusion] at hput
  have hfails : (∃ target e, .setUp n target (some e) ∈ calls) ↔ calls.countP (·.failsToSetUp n) ≠ 0 := by
    rw [ne_eq, countP_failsToSetUp]
    simp only [not_forall, not_not]
  rw [hfails, ← countP_failsToSetUp]
  omega

/-- The calls of a run whose compiler cannot be set up. -/
def unready : List (Call Unit) := [.make none, .setUp 0 {} (some ())]

/-- The run of a command line with two scripts. -/
theorem unready_left : Left (fun _ => Context.erratic [1]) unready :=
  .run { toolchain := some {} } twoInputs Context.uncounted

theorem left_put_away_unready : (Left (fun _ => Context.erratic [1]) unready ∧ Made unready 0 = true) ∧
    (unready.countP (·.putsAway 0) = 1 ↔ ∀ target e, .setUp 0 target (some e) ∉ unready) ∧
    (unready.countP (·.putsAway 0) = 0 ↔ ∃ target e, .setUp 0 target (some e) ∈ unready) :=
  ⟨⟨unready_left, rfl⟩, left_put_away unready_left rfl⟩

/-- **Not every compiler that is made is put away** by the end of a run: the one that cannot be set up is not. -/
theorem unready_not_put_away :
    ¬ ∀ (kind : Toolchain → CompilerKind Nat Unit Unit) (calls : List (Call Unit)) (n : Nat), Left kind calls →
      Made calls n = true → calls.countP (·.putsAway n) = 1 := by
  intro h
  have hone : unready.countP (·.putsAway 0) = 1 := h _ unready 0 unready_left rfl
  cases hone

end ScriptDriver
