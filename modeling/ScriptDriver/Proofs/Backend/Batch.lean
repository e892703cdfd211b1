import ScriptDriver.Proofs.Backend.Turn
/-!
# Batch — script after script

The scripts of a batch have their turns one after the other, each in the world that the one before it left, whatever
came of that one.  A turn that nothing ends leaves the batch going; the first one that something ends is the last
(`compileAll_of_fault`).  So a batch is carried out as it should be exactly if nothing ends it in any turn.
-/
namespace ScriptDriver.Backend

open File (Path)

/-- The turns of scripts, each with the dependency pair in the same place. -/
def turns (c : Compiler) (b : Batch) : List (Text × Text) → List (Text × Text) → World Session → List Turn
  | [], _, _ => []
  | pair :: pairs, dependencies, w =>
    ⟨pair, dependencies.head?, w⟩ ::
      turns c b pairs dependencies.tail (Turn.play c b ⟨pair, dependencies.head?, w⟩).2

def worldAfter (c : Compiler) (b : Batch) : List (Text × Text) → List (Text × Text) → World Session → World Session
  | [], _, w => w
  | pair :: pairs, dependencies, w =>
    worldAfter c b pairs dependencies.tail (Turn.play c b ⟨pair, dependencies.head?, w⟩).2

def Turn.all (c : Compiler) (b : Batch) (w : World Session) : List Turn :=
  turns c b b.plan.outputs b.plan.dependencies w

/-- **The answers are about the runs**: nothing happens that nobody expects, and runs take too long only if their limit
can be waited for. -/
structure Sound (c : Compiler) (outcomes : List Outcome) : Prop where
  expected : ∀ reason, .crashed reason ∉ outcomes
  limit : .timedOut ∈ outcomes → c.toolchain.timeout.natAbs < Nat.pow 2 waitBits

/-- **A batch carried out**, whatever happens in it: it ends with a verdict, every script has had its turn, every turn
was as it should be, the verdict is good exactly if all turns were, and the backend was run once for every script in
order unless only dependency files are wanted. -/
structure CarriedOut (c : Compiler) (b : Batch) (w : World Session) (good : Bool) (after : World Session) : Prop where
  ends : compile c b w = (.ok good, after)
  everyScript : (Turn.all c b w).map (·.pair) = b.plan.outputs
  kept : ∀ t ∈ Turn.all c b w, t.Kept c b
  good : good = true ↔ ∀ t ∈ Turn.all c b w, t.Good c b
  leaves : after = worldAfter c b b.plan.outputs b.plan.dependencies w
  runs : b.outputType ≠ .dependency → ∃ commandOf : Text × Text → List Text,
    (∀ pair ∈ b.plan.outputs, c.command w.disk.workingDirectory (scriptOf b pair) = .ok (commandOf pair)) ∧
      after.outside.runs = w.outside.runs ++ b.plan.outputs.map fun pair => ⟨commandOf pair, c.toolchain.timeout⟩
  noRuns : b.outputType = .dependency → after.outside = w.outside

variable {c : Compiler} {b : Batch}

/-! ## The turns -/

theorem turns_pair (c : Compiler) (b : Batch) : ∀ (pairs dependencies : List (Text × Text)) (w : World Session),
    (turns c b pairs dependencies w).map (·.pair) = pairs
  | [], _, _ => rfl
  | pair :: pairs, dependencies, w => by
    rw [turns, List.map_cons, turns_pair]

theorem Sound.mono {outcomes more : List Outcome} (h : Sound c more) (sub : outcomes ⊆ more) : Sound c outcomes :=
  ⟨fun reason hmem => h.expected reason (sub hmem), fun hmem => h.limit (sub hmem)⟩

/-- The next answer is one of those to come, or plain success. -/
theorem Sound.turn {t : Turn} (h : Sound c t.world.outside.outcomes) : t.Sound c := by
  have hanswer : t.answer = .exited 0 [] ∨ t.answer ∈ t.world.outside.outcomes := by
    unfold Turn.answer
    cases t.world.outside.outcomes with
    | nil => exact .inl rfl
    | cons o rest => exact .inr List.mem_cons_self
  constructor
  · intro reason hcrashed
    rw [hcrashed] at hanswer
    exact h.expected reason (hanswer.resolve_left nofun)
  · intro hlate
    rw [hlate] at hanswer
    exact h.limit (hanswer.resolve_left nofun)

theorem turns_sound : ∀ (pairs dependencies : List (Text × Text)) (w : World Session), Sound c w.outside.outcomes →
    ∀ t ∈ turns c b pairs dependencies w, t.Sound c
  | [], _, _, _, _, ht => by cases ht
  | pair :: pairs, dependencies, w, sound, t, ht => by
    rcases List.mem_cons.1 ht with rfl | ht
    · exact Sound.turn sound
    · have hused := (Turn.play_frame c b ⟨pair, dependencies.head?, w⟩).2
      exact turns_sound pairs dependencies.tail _ (sound.mono hused) t ht

/-! ## The verdict -/

/-- **As long as turns end, the batch goes on**, and its verdict is good exactly if every turn's was. -/
theorem compileAll_of_ends : ∀ (pairs dependencies : List (Text × Text)) (w : World Session),
    (∀ t ∈ turns c b pairs dependencies w, ∃ good, (t.play c b).1 = .ok good) →
      ∃ good, compileAll c b pairs dependencies w = (.ok good, worldAfter c b pairs dependencies w) ∧
        (good = true ↔ ∀ t ∈ turns c b pairs dependencies w, (t.play c b).1 = .ok true)
  | [], _, _, _ => ⟨true, rfl, fun _ _ => nofun, fun _ => rfl⟩
  | pair :: pairs, dependencies, w, hends => by
    obtain ⟨first, hfirst⟩ := hends _ List.mem_cons_self
    obtain ⟨rest, hrest, hgood⟩ := compileAll_of_ends pairs dependencies.tail _
      fun t ht => hends t (List.mem_cons_of_mem _ ht)
    refine ⟨first && rest, ?_, ?_⟩
    · rcases hplay : Turn.play c b ⟨pair, dependencies.head?, w⟩ with ⟨r, w'⟩
      rw [hplay] at hfirst hrest
      cases hfirst
      rw [compileAll, show compileScript c b pair dependencies.head? w = _ from hplay]
      simp only [hrest, worldAfter, hplay]
    · rw [turns, List.forall_mem_cons, hfirst, ← hgood, Bool.and_eq_true]
      exact and_congr_left' ⟨fun h => by rw [h], fun h => by cases h; rfl⟩

/-- **The first turn that does not end ends the batch**: it comes to what that turn came to, and the scripts after it
have no turn. -/
theorem compileAll_of_fault : ∀ (pairs dependencies : List (Text × Text)) (w : World Session),
    (∃ t ∈ turns c b pairs dependencies w, ∃ e, (t.play c b).1 = .error e) →
      ∃ before t rest e, turns c b pairs dependencies w = before ++ t :: rest ∧
        (∀ s ∈ before, ∃ good, (s.play c b).1 = .ok good) ∧ (t.play c b).1 = .error e ∧
        compileAll c b pairs dependencies w = t.play c b
  | [], _, _, h => by
    obtain ⟨t, ht, -⟩ := h
    cases ht
  | pair :: pairs, dependencies, w, h => by
    rcases hplay : Turn.play c b ⟨pair, dependencies.head?, w⟩ with ⟨e | first, w'⟩
    · refine ⟨[], _, _, e, by rw [turns, List.nil_append], nofun, by rw [hplay], ?_⟩
      rw [compileAll, show compileScript c b pair dependencies.head? w = _ from hplay, hplay]
    · obtain ⟨t, ht, e, he⟩ := h
      have hlater : t ∈ turns c b pairs dependencies.tail w' := by
        rw [turns, hplay] at ht
        rcases List.mem_cons.1 ht with rfl | ht
        · rw [hplay] at he
          cases he
        · exact ht
      obtain ⟨before, t, rest, e, hturns, hbefore, he, hall⟩ :=
        compileAll_of_fault pairs dependencies.tail w' ⟨t, hlater, e, he⟩
      refine ⟨⟨pair, dependencies.head?, w⟩ :: before, t, rest, e, ?_, ?_, he, ?_⟩
      · rw [turns, hplay, hturns, List.cons_append]
      · exact List.forall_mem_cons.2 ⟨⟨first, by rw [hplay]⟩, hbefore⟩
      · rw [compileAll, show compileScript c b pair dependencies.head? w = _ from hplay]
        rcases hrest : t.play c b with ⟨r, after⟩
        rw [hrest] at he hall
        cases he
        simp only [hall]

/-! ## The runs -/

theorem worldAfter_runs (htype : b.outputType ≠ .dependency) {here : File.Path} {commandOf : Text × Text → List Text}
    (hcommand : ∀ pair command, c.command here (scriptOf b pair) = .ok command → commandOf pair = command) :
    ∀ (pairs dependencies : List (Text × Text)) (w : World Session), w.disk.workingDirectory = here →
      (∀ t ∈ turns c b pairs dependencies w, t.Kept c b) →
        (∀ pair ∈ pairs, c.command here (scriptOf b pair) = .ok (commandOf pair)) ∧
          (worldAfter c b pairs dependencies w).outside.runs =
            w.outside.runs ++ pairs.map fun pair => ⟨commandOf pair, c.toolchain.timeout⟩
  | [], _, w, _, _ => ⟨nofun, (List.append_nil _).symm⟩
  | pair :: pairs, dependencies, w, hhere, hkept => by
    rw [turns, List.forall_mem_cons] at hkept
    obtain ⟨command, hfirst, hran, -⟩ := hkept.1.run htype
    have hfirst : c.command here (scriptOf b pair) = .ok command := hhere ▸ hfirst
    have hlater : (Turn.play c b ⟨pair, dependencies.head?, w⟩).2.disk.workingDirectory = here := by
      rw [← hhere]
      unfold File.Disk.workingDirectory
      rw [(Turn.play_frame c b ⟨pair, dependencies.head?, w⟩).1]
    obtain ⟨hrest, hruns⟩ := worldAfter_runs htype hcommand pairs dependencies.tail _ hlater hkept.2
    have hthis := hcommand pair command hfirst
    refine ⟨List.forall_mem_cons.2 ⟨hthis ▸ hfirst, hrest⟩, ?_⟩
    rw [worldAfter, hruns, hran, Session.run_runs, List.append_assoc, List.map_cons, hthis]
    rfl

theorem worldAfter_noRuns (htype : b.outputType = .dependency) :
    ∀ (pairs dependencies : List (Text × Text)) (w : World Session),
      (∀ t ∈ turns c b pairs dependencies w, t.Kept c b) →
        (worldAfter c b pairs dependencies w).outside = w.outside
  | [], _, _, _ => rfl
  | pair :: pairs, dependencies, w, hkept => by
    rw [turns, List.forall_mem_cons] at hkept
    rw [worldAfter, worldAfter_noRuns htype pairs dependencies.tail _ hkept.2]
    exact hkept.1.noRun htype

/-! ## The batch -/

theorem carriedOut_of_kept {w : World Session} (hkept : ∀ t ∈ Turn.all c b w, t.Kept c b) :
    ∃ good after, CarriedOut c b w good after := by
  obtain ⟨good, hends, hgood⟩ := compileAll_of_ends b.plan.outputs b.plan.dependencies w fun t ht =>
    (hkept t ht).result.imp fun _ h => h.1
  refine ⟨good, _, ⟨hends, turns_pair c b _ _ w, hkept, ?_, rfl, fun htype => ?_, fun htype => ?_⟩⟩
  · rw [hgood]
    refine forall₂_congr fun t ht => ?_
    obtain ⟨verdict, hverdict, hiff⟩ := (hkept t ht).result
    rw [hverdict, ← hiff]
    exact ⟨fun h => by cases h; rfl, fun h => by rw [h]⟩
  · refine ⟨fun pair => ((c.command w.disk.workingDirectory (scriptOf b pair)).toOption).getD [], ?_⟩
    exact worldAfter_runs htype (fun pair command h => by rw [h]; rfl) _ _ w rfl hkept
  · exact worldAfter_noRuns htype _ _ w hkept

/-- **A batch that something ends is broken off in that turn**: the turns before it were as they should be, and the
scripts after it have none. -/
theorem compile_of_unguarded {w : World Session} (sound : Sound c w.outside.outcomes)
    (h : ∃ t ∈ Turn.all c b w, t.Unguarded c b) :
    ∃ before t rest e, Turn.all c b w = before ++ t :: rest ∧ (∀ s ∈ before, s.Kept c b) ∧ t.Unguarded c b ∧
      compile c b w = t.play c b ∧ (t.play c b).1 = .error e := by
  have hanswers := turns_sound (c := c) (b := b) b.plan.outputs b.plan.dependencies w sound
  obtain ⟨t, ht, hunguarded⟩ := h
  obtain ⟨e, after, hplay⟩ := Turn.play_of_unguarded hunguarded
  obtain ⟨before, t, rest, e, hturns, hbefore, he, hall⟩ :=
    compileAll_of_fault b.plan.outputs b.plan.dependencies w ⟨t, ht, e, by rw [hplay]⟩
  rw [hturns] at hanswers
  have hlast := hanswers t (List.mem_append_right _ List.mem_cons_self)
  refine ⟨before, t, rest, e, hturns, fun s hs => ?_, Turn.unguarded_of_fault hlast he, hall, he⟩
  obtain ⟨good, hgood⟩ := hbefore s hs
  exact Turn.play_kept (Turn.guarded_of_ends hgood) (hanswers s (List.mem_append_left _ hs))

/-- **A batch is carried out as it should be exactly if nothing ends it in any turn**, whatever is on the disk and
whatever the backend answers, as long as its answers are about the runs. -/
theorem compile_carriedOut_iff (c : Compiler) (b : Batch) (w : World Session) (sound : Sound c w.outside.outcomes) :
    (∃ good after, CarriedOut c b w good after) ↔ ∀ t ∈ Turn.all c b w, ¬ t.Unguarded c b := by
  have hanswers := turns_sound (c := c) (b := b) b.plan.outputs b.plan.dependencies w sound
  constructor
  · rintro ⟨good, after, h⟩ t ht
    exact (Turn.kept_iff (hanswers t ht)).1 (h.kept t ht)
  · intro hguarded
    exact carriedOut_of_kept fun t ht => (Turn.kept_iff (hanswers t ht)).2 (hguarded t ht)

/-! ## Turns that nothing stands in the way of -/

namespace Turn

/-- Whether nothing stands in the way of a turn, due or not. -/
def clear (c : Compiler) (b : Batch) (t : Turn) : Bool :=
  (t.world.disk.ensureParent (Path.ofText t.pair.2)).2.isNone &&
    t.dependency.all fun pair => (t.writing c b pair).2.isNone

variable {t : Turn} (h : t.clear c b = true)
include h

theorem noDirectory_of_clear (e : File.Fault) : ¬ t.NoDirectory b e := by
  intro missing
  unfold clear at h
  simp only [missing.2.2, Option.isNone_some, Bool.false_and, Bool.false_eq_true] at h

theorem noRule_of_clear (pair : Text × Text) (e : File.Fault) : ¬ t.NoRule c b pair e := by
  intro missing
  unfold clear at h
  simp only [missing.1.2.2, Option.all_some, missing.2, Option.isNone_some, Bool.and_false, Bool.false_eq_true] at h

theorem guarded_of_clear {level : Text} (written : Decimal.write b.targetApi = .ok level) : ¬ t.Unguarded c b := by
  rintro (missing | ⟨-, long⟩ | missing)
  · exact noDirectory_of_clear h _ missing
  · rw [written] at long
    cases long
  · exact noRule_of_clear h _ _ missing

end Turn

/-- Two scripts, the first with its output two directories down. -/
def twoScripts : Batch :=
  { Batch.of {} [] with plan := ⟨[("a.rs", "out/sub/a.bc"), ("b.rs", "b.bc")], []⟩ }

/-- A disk with these entries and nothing else, a backend with these answers, and blank consoles. -/
def freshWorld (entries : List (File.Location × File.Entry)) (outcomes : List Outcome) : World Session :=
  ⟨⟨entries, []⟩, .blank 80, .blank 80, { outcomes }⟩

/-- The first script is not compiled, and for the second one there is no program. -/
theorem compile_carriedOut_iff_failing :
    Sound { toolchain := {} } (freshWorld [] [.exited 1 [], .notFound]).outside.outcomes ∧
      ∃ after, CarriedOut { toolchain := {} } twoScripts (freshWorld [] [.exited 1 [], .notFound]) false after := by
  have sound : Sound { toolchain := {} } (freshWorld [] [.exited 1 [], .notFound]).outside.outcomes :=
    ⟨fun reason h => by simp [freshWorld] at h, fun h => by simp [freshWorld] at h⟩
  have guarded : ∀ t ∈ Turn.all { toolchain := {} } twoScripts (freshWorld [] [.exited 1 [], .notFound]),
      ¬ t.Unguarded { toolchain := {} } twoScripts := fun t ht =>
    Turn.guarded_of_clear (List.all_eq_true.1 (by decide +kernel) t ht) (if_neg (by decide +kernel))
  obtain ⟨good, after, h⟩ := (compile_carriedOut_iff _ _ _ sound).2 guarded
  have hverdict : (compile { toolchain := {} } twoScripts (freshWorld [] [.exited 1 [], .notFound])).1.toOption =
    some false := by decide +kernel
  rw [h.ends] at hverdict
  obtain rfl := Option.some.inj hverdict
  exact ⟨sound, after, h⟩

/-- **With a file in the way of an output directory a batch is not carried out.** -/
theorem blocked_batch_not_carriedOut :
    ¬ ∃ good after, CarriedOut { toolchain := {} } twoScripts
      (freshWorld [([Text.toBytes "out"], .file [])] []) good after := by
  rintro ⟨good, after, h⟩
  have hfault : (compile { toolchain := {} } twoScripts (freshWorld [([Text.toBytes "out"], .file [])] [])).1 =
      .error (.file (.refused { refusal := .notDirectory, path := "out/sub" })) := by rfl
  rw [h.ends] at hfault
  cases hfault

end ScriptDriver.Backend
