import ScriptDriver.Proofs.Backend.RuleFiles
import ScriptDriver.Proofs.Backend.Runs
/-!
# Outcomes — what the answers of the backend decide

As long as the file system does not stand in the way, what a batch comes to is decided by the answers of the backend,
each of them about the script in its place: which dependency rules are written, and whether the batch is good.  The runs
are decided by the batch alone, so another answer about one script changes nothing for the other ones.  All of that holds
exactly if the level can be written (`compile_semantics`).  What the backend does to the disk is its own affair; if it
keeps to its outputs, dependency files hold the rules that were written to them last.
-/
namespace ScriptDriver.Backend

open File (Path Disk EndsIn)
open Output (dependencyByte)

/-! ## What is decided -/

/-- The answer of the backend about the script in a place. -/
def answerTo (outcomes : List Outcome) (i : Nat) : Outcome := outcomes[i]?.getD (.exited 0 [])

/-- The script in a place is compiled, or need not be. -/
def Succeeds (b : Batch) (outcomes : List Outcome) (i : Nat) : Prop :=
  b.outputType = .dependency ∨ ∃ output, answerTo outcomes i = .exited 0 output

/-- **A dependency rule is due** for the input in a place. -/
structure DueAt (b : Batch) (outcomes : List Outcome) (i : Nat) (input : Text) (pair : Text × Text) : Prop where
  wanted : b.withDependencies = true
  listed : b.plan.outputs[i]?.map Prod.fst = some input
  paired : b.plan.dependencies[i]? = some pair
  succeeded : Succeeds b outcomes i

/-- **A file system that does not stand in the way**: directories that are needed can be made, and dependency files that
are due can be written. -/
structure Unhindered (c : Compiler) (b : Batch) (w : World Session) : Prop where
  directory : ∀ t ∈ Turn.all c b w, ∀ e, ¬ t.NoDirectory b e
  rule : ∀ t ∈ Turn.all c b w, ∀ pair e, ¬ t.NoRule c b pair e

/-- **The level can be written**, if there is a script to compile. -/
def WithinDigits (b : Batch) : Prop :=
  b.outputType ≠ .dependency → b.plan.outputs ≠ [] → ∃ level, Decimal.write b.targetApi = .ok level

/-- A turn writes a rule after its run. -/
def Turn.Writes (c : Compiler) (b : Batch) (t : Turn) (path text : Text) : Prop :=
  writeRule path text (t.left c b) = ((t.play c b).2.disk, none)

def Turn.WritesNothing (c : Compiler) (b : Batch) (t : Turn) : Prop := (t.play c b).2.disk = t.left c b

/-- Turns that write the same rule to the same file, or both nothing. -/
def SameRule (c : Compiler) (b : Batch) (t t' : Turn) : Prop :=
  (∃ path text, t.Writes c b path text ∧ t'.Writes c b path text) ∨ t.WritesNothing c b ∧ t'.WritesNothing c b

def answered (w : World Session) (outcomes : List Outcome) : World Session :=
  { w with outside := { w.outside with outcomes } }

/-- **Scripts do not depend on each other**: with another answer about one of them the same commands are run, and the
same rules are written for the others. -/
def Independent (c : Compiler) (b : Batch) (w after : World Session) : Prop :=
  ∀ (k : Nat) (outcomes : List Outcome), (∀ i, i ≠ k → answerTo outcomes i = answerTo w.outside.outcomes i) →
    Sound c outcomes → Unhindered c b (answered w outcomes) →
      ∃ good' after', compile c b (answered w outcomes) = (.ok good', after') ∧
        after'.outside.runs = after.outside.runs ∧
        ∀ i t t', i ≠ k → (Turn.all c b w)[i]? = some t → (Turn.all c b (answered w outcomes))[i]? = some t' →
          SameRule c b t t'

def HoldsRule (d : Disk) (b : Batch) (input : Text) (pair : Text × Text) : Prop :=
  ∃ l bytes, Charset.utf8.encode (ruleFor b input pair) = .ok bytes ∧ d.read (dependencyFile pair) = .ok (l, bytes)

/-- **A batch with the dependency files of a plan**, made for its scripts or at least for names of characters. -/
structure Planned (b : Batch) (s : Settings) (inputs : List Text) : Prop where
  dependencies : b.plan.dependencies = (Output.plan s inputs).dependencies
  names : b.plan.outputs.map Prod.fst = inputs ∨ ∀ input ∈ inputs, input.Clean

/-- **A dependency file is not the output of a later run.** -/
def OutputsApart (d : Disk) (b : Batch) (i : Nat) (pair : Text × Text) : Prop :=
  b.outputType ≠ .dependency → ∀ j pair', i < j → b.plan.outputs[j]? = some pair' →
    ¬ SameFile d pair'.2 (dependencyFile pair)

/-- **What a batch comes to.**  On a disk without links, with a backend that keeps to its outputs and with the dependency
files of a plan, a dependency file holds the last rule that is due for the same file (`sameFile`), which is the last one
that is due for the same path (`samePath`).  That needs outputs apart from the dependency files, as they are if they are
those of the plan (`wholePlan`). -/
structure Semantics (c : Compiler) (b : Batch) (w : World Session) (good : Bool) (after : World Session) : Prop where
  ends : compile c b w = (.ok good, after)
  everyScript : (Turn.all c b w).map (·.pair) = b.plan.outputs
  runs : b.outputType ≠ .dependency → ∃ commandOf : Text × Text → List Text,
    (∀ pair ∈ b.plan.outputs, c.command w.disk.workingDirectory (scriptOf b pair) = .ok (commandOf pair)) ∧
      after.outside.runs = w.outside.runs ++ b.plan.outputs.map fun pair => ⟨commandOf pair, c.toolchain.timeout⟩
  noRuns : b.outputType = .dependency → after.outside.runs = w.outside.runs
  good : good = true ↔ ∀ i < b.plan.outputs.length, Succeeds b w.outside.outcomes i
  written : ∀ i t, (Turn.all c b w)[i]? = some t → ∀ input pair, DueAt b w.outside.outcomes i input pair →
    t.Writes c b pair.2 (ruleFor b input pair)
  unwritten : ∀ i t, (Turn.all c b w)[i]? = some t → (∀ input pair, ¬ DueAt b w.outside.outcomes i input pair) →
    t.WritesNothing c b
  sameFile : w.disk.Unlinked → Tidy c b w → ∀ s inputs, b.plan.dependencies = (Output.plan s inputs).dependencies →
    ∀ i input pair, DueAt b w.outside.outcomes i input pair →
      (∀ j input' pair', i < j → DueAt b w.outside.outcomes j input' pair' →
        ¬ SameFile after.disk (dependencyFile pair') (dependencyFile pair)) →
      OutputsApart after.disk b i pair → HoldsRule after.disk b input pair
  samePath : w.disk.Unlinked → Tidy c b w → ∀ s inputs, Planned b s inputs →
    ∀ i input pair, DueAt b w.outside.outcomes i input pair →
      (∀ j input' pair', i < j → DueAt b w.outside.outcomes j input' pair' → pair'.2 ≠ pair.2) →
      OutputsApart after.disk b i pair → HoldsRule after.disk b input pair
  wholePlan : w.disk.Unlinked → Tidy c b w → ∀ s inputs, b.plan = Output.plan s inputs → b.outputType = s.outputType →
    ∀ i input pair, DueAt b w.outside.outcomes i input pair →
      (∀ j input' pair', i < j → DueAt b w.outside.outcomes j input' pair' → pair'.2 ≠ pair.2) →
      HoldsRule after.disk b input pair
  independent : Independent c b w after

/-! ## Answers and turns -/

theorem Session.run_tail (s : Session) (r : Run) : (s.run r).2.outcomes = s.outcomes.tail := by
  unfold Session.run
  cases s.outcomes <;> rfl

theorem answerTo_tail (outcomes : List Outcome) (i : Nat) : answerTo outcomes.tail i = answerTo outcomes (i + 1) := by
  unfold answerTo
  rw [List.getElem?_tail]

theorem Turn.answer_eq (t : Turn) : t.answer = answerTo t.world.outside.outcomes 0 := by
  unfold Turn.answer answerTo
  cases t.world.outside.outcomes <;> rfl

variable {c : Compiler} {b : Batch}

theorem Turn.Kept.answerTo_next {t : Turn} (kept : t.Kept c b) (htype : b.outputType ≠ .dependency) (i : Nat) :
    answerTo (t.play c b).2.outside.outcomes i = answerTo t.world.outside.outcomes (i + 1) := by
  obtain ⟨command, -, hran, -⟩ := kept.run htype
  rw [hran, Session.run_tail, answerTo_tail]

/-- **The turn in a place** is that of the script there, with the dependency pair there and the answer there. -/
theorem turns_get : ∀ (pairs dependencies : List (Text × Text)) (w : World Session),
    (∀ t ∈ turns c b pairs dependencies w, t.Kept c b) → ∀ (i : Nat) (t : Turn),
      (turns c b pairs dependencies w)[i]? = some t → pairs[i]? = some t.pair ∧ t.dependency = dependencies[i]? ∧
        (b.outputType ≠ .dependency → t.answer = answerTo w.outside.outcomes i)
  | [], _, _, _, _, _, ht => by cases ht
  | pair :: pairs, dependencies, w, _, 0, t, ht => by
    rw [turns] at ht
    cases ht
    exact ⟨rfl, List.head?_eq_getElem?, fun _ => Turn.answer_eq _⟩
  | pair :: pairs, dependencies, w, kept, i + 1, t, ht => by
    rw [turns] at ht kept
    rw [List.forall_mem_cons] at kept
    obtain ⟨hpair, hdependency, hanswer⟩ := turns_get pairs dependencies.tail _ kept.2 i t ht
    refine ⟨hpair, by rw [hdependency, List.getElem?_tail], fun htype => ?_⟩
    rw [hanswer htype, kept.1.answerTo_next htype]

theorem turns_length (c : Compiler) (b : Batch) (w : World Session) :
    (Turn.all c b w).length = b.plan.outputs.length := by
  have hlength := congrArg List.length (turns_pair c b b.plan.outputs b.plan.dependencies w)
  rwa [List.length_map] at hlength

theorem DueAt.lt {outcomes : List Outcome} {i : Nat} {input : Text} {pair : Text × Text}
    (due : DueAt b outcomes i input pair) : i < b.plan.outputs.length := by
  obtain ⟨pair', hpair', -⟩ := Option.map_eq_some_iff.1 due.listed
  exact (List.getElem?_eq_some_iff.1 hpair').1

theorem exists_turn {w : World Session} {i : Nat} (h : i < b.plan.outputs.length) :
    ∃ t, (Turn.all c b w)[i]? = some t :=
  ⟨_, List.getElem?_eq_getElem (by rw [turns_length]; exact h)⟩

/-- **Every turn is as it should be** if nothing stands in the way and the level can be written. -/
theorem kept_of_withinDigits {w : World Session} (sound : Sound c w.outside.outcomes) (unhindered : Unhindered c b w)
    (digits : WithinDigits b) : ∀ t ∈ Turn.all c b w, t.Kept c b := by
  intro t ht
  have hsome : b.plan.outputs ≠ [] := by
    intro hnil
    have hlength := turns_length c b w
    rw [hnil] at hlength
    rw [List.eq_nil_of_length_eq_zero hlength] at ht
    cases ht
  refine Turn.play_kept (fun hunguarded => ?_) (turns_sound _ _ w sound t ht)
  cases hunguarded with
  | directory missing => exact unhindered.directory t ht _ missing
  | rule missing => exact unhindered.rule t ht _ _ missing
  | level runs long =>
    obtain ⟨text, htext⟩ := digits runs hsome
    rw [htext] at long
    cases long

/-- **A batch that ends has written its level.** -/
theorem withinDigits_of_ends {w : World Session} (sound : Sound c w.outside.outcomes) {good : Bool}
    {after : World Session} (ends : compile c b w = (.ok good, after)) : WithinDigits b := by
  intro runs hsome
  obtain ⟨t, ht⟩ := exists_turn (c := c) (w := w) (List.length_pos_iff.2 hsome)
  cases hlevel : Decimal.write b.targetApi with
  | ok level => exact ⟨level, rfl⟩
  | error e =>
    obtain ⟨_, t, _, e, -, -, -, hcompile, herror⟩ :=
      compile_of_unguarded sound ⟨t, List.mem_of_getElem? ht, .level runs hlevel⟩
    rw [← hcompile, ends] at herror
    cases herror

section
variable {w : World Session} (kept : ∀ t ∈ Turn.all c b w, t.Kept c b) {i : Nat} {t : Turn}
  (ht : (Turn.all c b w)[i]? = some t)
include kept ht

theorem dueAt_input {input : Text} {pair : Text × Text} (due : DueAt b w.outside.outcomes i input pair) :
    input = t.pair.1 := by
  obtain ⟨hpair, -, -⟩ := turns_get _ _ w kept i t ht
  have hlisted := due.listed
  rw [hpair] at hlisted
  exact (Option.some.inj hlisted).symm

variable (unhindered : Unhindered c b w)
include unhindered

theorem compiled_iff : t.Compiled b ↔ Succeeds b w.outside.outcomes i := by
  obtain ⟨-, -, hanswer⟩ := turns_get _ _ w kept i t ht
  have hdirectory := unhindered.directory t (List.mem_of_getElem? ht)
  unfold Turn.Compiled Succeeds
  by_cases htype : b.outputType = .dependency
  · exact iff_of_true (.inl htype) (.inl htype)
  · rw [hanswer htype, and_iff_right hdirectory]

/-- **A dependency file is due in a turn exactly if the answers decide so.** -/
theorem due_iff (pair : Text × Text) : t.Due b pair ↔ DueAt b w.outside.outcomes i t.pair.1 pair := by
  obtain ⟨hpair, hdependency, -⟩ := turns_get _ _ w kept i t ht
  have hcompiled := compiled_iff kept ht unhindered
  constructor
  · rintro ⟨compiled, wanted, paired⟩
    exact ⟨wanted, by rw [hpair]; rfl, hdependency ▸ paired, hcompiled.1 compiled⟩
  · rintro ⟨wanted, -, paired, succeeded⟩
    exact ⟨hcompiled.2 succeeded, wanted, hdependency.trans paired⟩

theorem writes_of_due {input : Text} {pair : Text × Text} (due : DueAt b w.outside.outcomes i input pair) :
    t.Writes c b pair.2 (ruleFor b input pair) := by
  obtain rfl := dueAt_input kept ht due
  have hmem := List.mem_of_getElem? ht
  have hdue := (due_iff kept ht unhindered pair).2 due
  have hdisk := (kept t hmem).written pair hdue
  rcases hwriting : t.writing c b pair with ⟨d, _ | e⟩
  · rw [hwriting] at hdisk
    rw [Turn.Writes, hdisk]
    exact hwriting
  · exact absurd ⟨hdue, by rw [hwriting]⟩ (unhindered.rule t hmem pair e)

theorem writesNothing_of_not_due (none : ∀ input pair, ¬ DueAt b w.outside.outcomes i input pair) :
    t.WritesNothing c b :=
  (kept t (List.mem_of_getElem? ht)).unwritten fun pair due => none _ pair ((due_iff kept ht unhindered pair).1 due)

end

/-! ## Dependency files -/

section
variable {w : World Session} (kept : ∀ t ∈ Turn.all c b w, t.Kept c b) (unhindered : Unhindered c b w)
include kept unhindered

theorem smooth_of_plan (tidy : Tidy c b w) {s : Settings} {inputs : List Text}
    (hplan : b.plan.dependencies = (Output.plan s inputs).dependencies) : ∀ t ∈ Turn.all c b w, t.Smooth c b := by
  intro t ht
  refine ⟨kept t ht, unhindered.rule t ht, fun pair hpair => ?_, tidy.turn ht⟩
  obtain ⟨i, hi⟩ := List.mem_iff_getElem?.1 ht
  obtain ⟨-, hdependency, -⟩ := turns_get _ _ w kept i t hi
  obtain ⟨dir, hdir⟩ := Output.dependency_path s inputs
  rw [hdependency, hplan] at hpair
  obtain ⟨input, -, hpath⟩ := hdir i pair hpair
  unfold dependencyFile
  rw [hpath]
  exact Output.dependency_endsIn dir input

/-- **A dependency file holds the last rule that is due for the same file.** -/
theorem holdsRule_of_lastFile (unlinked : w.disk.Unlinked) (tidy : Tidy c b w) {s : Settings} {inputs : List Text}
    (hplan : b.plan.dependencies = (Output.plan s inputs).dependencies) {i : Nat} {input : Text} {pair : Text × Text}
    (due : DueAt b w.outside.outcomes i input pair)
    (last : ∀ j input' pair', i < j → DueAt b w.outside.outcomes j input' pair' →
      ¬ SameFile (worldAfter c b b.plan.outputs b.plan.dependencies w).disk (dependencyFile pair')
        (dependencyFile pair))
    (apart : OutputsApart (worldAfter c b b.plan.outputs b.plan.dependencies w).disk b i pair) :
    HoldsRule (worldAfter c b b.plan.outputs b.plan.dependencies w).disk b input pair := by
  have hsmooth := smooth_of_plan kept unhindered tidy hplan
  obtain ⟨hunlinked, -⟩ := worldAfter_keeps _ _ w hsmooth unlinked
  obtain ⟨t, ht⟩ := exists_turn (c := c) (w := w) due.lt
  obtain rfl := dueAt_input kept ht due
  obtain ⟨l, bytes, hencode, hholds⟩ := worldAfter_written _ _ w hsmooth unlinked i t pair ht
    ((due_iff kept ht unhindered pair).2 due) fun j t' hij ht' =>
      ⟨fun pair' due' => last j t'.pair.1 pair' hij ((due_iff kept ht' unhindered pair').1 due'),
        fun htype => apart htype j t'.pair hij (turns_get _ _ w kept j t' ht').1⟩
  exact ⟨l, bytes, hencode, hholds.read hunlinked.free⟩

theorem clean_of_due {i : Nat} {input : Text} {pair : Text × Text} (due : DueAt b w.outside.outcomes i input pair) :
    input.Clean := by
  obtain ⟨t, ht⟩ := exists_turn (c := c) (w := w) due.lt
  obtain ⟨bytes, hencode⟩ := encode_of_writeRule (writes_of_due kept ht unhindered due)
  obtain ⟨cs, hcs⟩ := Charset.chars_of_encode hencode
  have hclean : (rule (pair.1 :: b.dependencyTargets) [input]).Clean := by
    rw [show rule (pair.1 :: b.dependencyTargets) [input] = Text.ofChars cs from hcs]
    exact Text.clean_ofChars cs
  exact clean_of_rule hclean

/-- The name that the dependency file of a plan is called after has nothing but characters, if the file is due. -/
theorem planned_clean {s : Settings} {inputs : List Text} (planned : Planned b s inputs) {i : Nat}
    {input name : Text} {pair : Text × Text} (due : DueAt b w.outside.outcomes i input pair)
    (hname : inputs[i]? = some name) : name.Clean := by
  rcases planned.names with hinputs | hclean
  · have hlisted := due.listed
    rw [← List.getElem?_map, hinputs, hname] at hlisted
    rw [Option.some.inj hlisted]
    exact clean_of_due kept unhindered due
  · exact hclean name (List.mem_of_getElem? hname)

omit kept unhindered in
/-- Paths that end with different bytes lead to different places. -/
theorem not_sameFile_of_endsIn {d : Disk} (free : d.LinkFree) {path path' : Text} {last last' : UInt8}
    (ends : EndsIn path last) (ends' : EndsIn path' last') (hne : last ≠ last') : ¬ SameFile d path path' := by
  rintro ⟨place, hwalk, hwalk'⟩
  obtain ⟨_, _, cut, plain, -⟩ := Disk.cut_of_endsIn ends
  obtain ⟨_, _, cut', plain', -⟩ := Disk.cut_of_endsIn ends'
  obtain ⟨l, hl, hplace⟩ := Disk.leads_of_walk free cut plain hwalk
  obtain ⟨l', hl', hplace'⟩ := Disk.leads_of_walk free cut' plain' hwalk'
  obtain rfl := Disk.placeAt_inj (hplace.symm.trans hplace')
  exact hne (Option.some.inj ((hl.finalByte? ends).symm.trans (hl'.finalByte? ends')))

omit kept unhindered in
/-- **The outputs of a plan are apart from its dependency files.** -/
theorem outputsApart_of_plan {d : Disk} (free : d.LinkFree) {s : Settings} {inputs : List Text}
    (hplan : b.plan = Output.plan s inputs) (htype : b.outputType = s.outputType) {i : Nat} {input : Text}
    {pair : Text × Text} (due : DueAt b w.outside.outcomes i input pair) : OutputsApart d b i pair := by
  intro hruns j pair' _ houtput
  obtain ⟨dir, hdir⟩ := Output.dependency_path s inputs
  obtain ⟨name, -, hpath⟩ := hdir i pair (hplan ▸ due.paired)
  rw [hplan] at houtput
  obtain ⟨input', -, rfl⟩ := Option.map_eq_some_iff.1 ((List.getElem?_map ..).symm.trans houtput)
  rw [htype] at hruns
  have hends : EndsIn (dependencyFile pair) dependencyByte := by
    unfold dependencyFile
    rw [hpath]
    exact Output.dependency_endsIn dir name
  exact not_sameFile_of_endsIn free (Output.path_endsIn _ _ _) hends (Output.lastByte_ne hruns)

/-- **Two dependency files of a plan that are due are the same file only if they have the same path.** -/
theorem path_eq_of_sameFile {d : Disk} (free : d.LinkFree) {s : Settings} {inputs : List Text}
    (planned : Planned b s inputs) {i j : Nat} {input input' : Text} {pair pair' : Text × Text}
    (due : DueAt b w.outside.outcomes i input pair) (due' : DueAt b w.outside.outcomes j input' pair')
    (same : SameFile d (dependencyFile pair') (dependencyFile pair)) : pair'.2 = pair.2 := by
  obtain ⟨dir, hdir⟩ := Output.dependency_path s inputs
  obtain ⟨name, hname, hpath⟩ := hdir i pair (planned.dependencies ▸ due.paired)
  obtain ⟨name', hname', hpath'⟩ := hdir j pair' (planned.dependencies ▸ due'.paired)
  obtain ⟨place, hwalk', hwalk⟩ := same
  unfold dependencyFile at hwalk hwalk'
  rw [hpath] at hwalk
  rw [hpath'] at hwalk'
  obtain ⟨_, _, cut, plain, -⟩ := Disk.cut_of_endsIn (Output.dependency_endsIn dir name)
  obtain ⟨_, _, cut', plain', -⟩ := Disk.cut_of_endsIn (Output.dependency_endsIn dir name')
  obtain ⟨l, hl, hplace⟩ := Disk.leads_of_walk free cut plain hwalk
  obtain ⟨l', hl', hplace'⟩ := Disk.leads_of_walk free cut' plain' hwalk'
  obtain rfl := Disk.placeAt_inj (hplace.symm.trans hplace')
  rw [hpath, hpath']
  exact Output.path_eq_of_leads dir (planned_clean kept unhindered planned due' hname')
    (planned_clean kept unhindered planned due hname) hl' hl

end

/-! ## The batch -/

theorem good_iff_succeeds {w : World Session} (kept : ∀ t ∈ Turn.all c b w, t.Kept c b)
    (unhindered : Unhindered c b w) :
    (∀ t ∈ Turn.all c b w, t.Good c b) ↔ ∀ i < b.plan.outputs.length, Succeeds b w.outside.outcomes i := by
  constructor
  · intro good i hi
    obtain ⟨t, ht⟩ := exists_turn (c := c) (w := w) hi
    exact (compiled_iff kept ht unhindered).1 (good t (List.mem_of_getElem? ht)).1
  · intro succeeds t ht
    obtain ⟨i, hi⟩ := List.mem_iff_getElem?.1 ht
    have hlt : i < b.plan.outputs.length := turns_length c b w ▸ (List.getElem?_eq_some_iff.1 hi).1
    exact ⟨(compiled_iff kept hi unhindered).2 (succeeds i hlt), unhindered.rule t ht⟩

/-- **A turn does the same to its dependency file in every world that answers its run in the same way.** -/
theorem sameRule_of_answers {w w' : World Session} (kept : ∀ t ∈ Turn.all c b w, t.Kept c b)
    (kept' : ∀ t ∈ Turn.all c b w', t.Kept c b) (unhindered : Unhindered c b w) (unhindered' : Unhindered c b w')
    {i : Nat} (same : answerTo w'.outside.outcomes i = answerTo w.outside.outcomes i) {t t' : Turn}
    (ht : (Turn.all c b w)[i]? = some t) (ht' : (Turn.all c b w')[i]? = some t') : SameRule c b t t' := by
  have hsucceeds : Succeeds b w'.outside.outcomes i ↔ Succeeds b w.outside.outcomes i := by
    unfold Succeeds
    rw [same]
  have hdue : ∀ input pair, DueAt b w'.outside.outcomes i input pair ↔ DueAt b w.outside.outcomes i input pair := by
    intro input pair
    constructor
    · rintro ⟨wanted, listed, paired, succeeded⟩
      exact ⟨wanted, listed, paired, hsucceeds.1 succeeded⟩
    · rintro ⟨wanted, listed, paired, succeeded⟩
      exact ⟨wanted, listed, paired, hsucceeds.2 succeeded⟩
  by_cases h : ∃ input pair, DueAt b w.outside.outcomes i input pair
  · obtain ⟨input, pair, due⟩ := h
    exact .inl ⟨_, _, writes_of_due kept ht unhindered due,
      writes_of_due kept' ht' unhindered' ((hdue input pair).2 due)⟩
  · have hnone : ∀ input pair, ¬ DueAt b w.outside.outcomes i input pair := fun input pair due => h ⟨input, pair, due⟩
    exact .inr ⟨writesNothing_of_not_due kept ht unhindered hnone,
      writesNothing_of_not_due kept' ht' unhindered' fun input pair due =>
        hnone input pair ((hdue input pair).1 due)⟩

/-- **The runs do not depend on the answers.** -/
theorem runs_of_carriedOut {w w' after after' : World Session} {good good' : Bool} (h : CarriedOut c b w good after)
    (h' : CarriedOut c b w' good' after') (hdisk : w'.disk = w.disk) (hruns : w'.outside.runs = w.outside.runs) :
    after'.outside.runs = after.outside.runs := by
  by_cases htype : b.outputType = .dependency
  · rw [h.noRuns htype, h'.noRuns htype, hruns]
  · obtain ⟨commandOf, hcommand, hran⟩ := h.runs htype
    obtain ⟨commandOf', hcommand', hran'⟩ := h'.runs htype
    rw [hran, hran', hruns]
    refine congrArg _ (List.map_congr_left fun pair hpair => ?_)
    have hthis := hcommand' pair hpair
    rw [hdisk, hcommand pair hpair] at hthis
    rw [Except.ok.inj hthis]

theorem independent_of_carriedOut {w after : World Session} {good : Bool} (h : CarriedOut c b w good after)
    (unhindered : Unhindered c b w) (digits : WithinDigits b) : Independent c b w after := by
  intro k outcomes hsame sound' unhindered'
  have kept' := kept_of_withinDigits sound' unhindered' digits
  obtain ⟨good', after', h'⟩ := carriedOut_of_kept kept'
  refine ⟨good', after', h'.ends, runs_of_carriedOut h h' rfl rfl, fun i t t' hi ht ht' => ?_⟩
  exact sameRule_of_answers h.kept kept' unhindered unhindered' (hsame i hi) ht ht'

/-- **What a batch comes to is decided by the answers of the backend**, exactly if the level can be written: one run for
every script in order, or none if only dependency files are wanted; the rules that are due, and no other ones; a good
verdict if every script was compiled; and nothing for one script that depends on another. -/
theorem compile_semantics (c : Compiler) (b : Batch) (w : World Session) (sound : Sound c w.outside.outcomes)
    (unhindered : Unhindered c b w) :
    (∃ good after, Semantics c b w good after) ↔ WithinDigits b := by
  constructor
  · rintro ⟨good, after, h⟩
    exact withinDigits_of_ends sound h.ends
  intro digits
  have kept := kept_of_withinDigits sound unhindered digits
  obtain ⟨good, after, h⟩ := carriedOut_of_kept kept
  have holds : ∀ {s : Settings} {inputs : List Text}, Planned b s inputs → w.disk.Unlinked → Tidy c b w →
      ∀ {i : Nat} {input : Text} {pair : Text × Text}, DueAt b w.outside.outcomes i input pair →
        (∀ j input' pair', i < j → DueAt b w.outside.outcomes j input' pair' → pair'.2 ≠ pair.2) →
          (after.disk.LinkFree → OutputsApart after.disk b i pair) → HoldsRule after.disk b input pair := by
    intro s inputs planned unlinked tidy i input pair due last apart
    rw [h.leaves] at apart ⊢
    obtain ⟨hunlinked, -⟩ :=
      worldAfter_keeps _ _ w (smooth_of_plan kept unhindered tidy planned.dependencies) unlinked
    refine holdsRule_of_lastFile kept unhindered unlinked tidy planned.dependencies due
      (fun j input' pair' hij due' same => last j input' pair' hij due' ?_) (apart hunlinked.free)
    exact path_eq_of_sameFile kept unhindered hunlinked.free planned due due' same
  refine ⟨good, after, ?_⟩
  constructor
  case ends => exact h.ends
  case everyScript => exact h.everyScript
  case runs => exact h.runs
  case noRuns =>
    intro htype
    rw [h.noRuns htype]
  case good => exact h.good.trans (good_iff_succeeds kept unhindered)
  case written => exact fun i t ht input pair due => writes_of_due kept ht unhindered due
  case unwritten => exact fun i t ht none => writesNothing_of_not_due kept ht unhindered none
  case sameFile =>
    intro unlinked tidy s inputs hplan i input pair due last apart
    rw [h.leaves] at last apart ⊢
    exact holdsRule_of_lastFile kept unhindered unlinked tidy hplan due last apart
  case samePath =>
    exact fun unlinked tidy s inputs planned i input pair due last apart =>
      holds planned unlinked tidy due last fun _ => apart
  case wholePlan =>
    intro unlinked tidy s inputs hplan htype i input pair due last
    have planned : Planned b s inputs := by
      refine ⟨by rw [hplan], .inl ?_⟩
      rw [hplan]
      exact (List.map_map ..).trans (List.map_id inputs)
    exact holds planned unlinked tidy due last fun free => outputsApart_of_plan free hplan htype due
  case independent => exact independent_of_carriedOut h unhindered digits

/-! ## Three scripts, and too many digits -/

theorem unhindered_of_clear {w : World Session} (h : (Turn.all c b w).all (Turn.clear c b) = true) :
    Unhindered c b w :=
  ⟨fun t ht => Turn.noDirectory_of_clear (List.all_eq_true.1 h t ht),
    fun t ht => Turn.noRule_of_clear (List.all_eq_true.1 h t ht)⟩

/-- The output path of a run: the argument before the last one. -/
def Run.output (r : Run) : Text := r.command.dropLast.getLast?.getD []

/-- A backend that writes its output if it succeeds. -/
def writesOutput (r : Run) (o : Outcome) (d : Disk) : Disk :=
  match o with
  | .exited 0 _ => (d.write r.output .utf8 "BC").1
  | _ => d

theorem output_of_command {here : Path} {s : Script} {command : List Text} {timeout : Int}
    (h : c.command here s = .ok command) : Run.output ⟨command, timeout⟩ = s.output := by
  obtain ⟨-, -, rfl⟩ := command_iff.1 h
  simp only [Run.output, backArgs, fileArgs, ← List.append_assoc, List.dropLast_append_cons, List.dropLast_cons_cons,
    List.dropLast_singleton, List.getLast?_append, List.getLast?_cons_cons, List.getLast?_singleton, Option.some_or,
    Option.getD_some]

theorem tidy_writesOutput {w : World Session} (touch : w.outside.touch = writesOutput)
    (named : ∀ pair ∈ b.plan.outputs, File.Named pair.2) : Tidy c b w := by
  intro pair hpair command outcome d hcommand unlinked
  have hwritten := Disk.write_onlyAt unlinked.free (named pair hpair) .utf8 "BC"
  rw [touch]
  unfold writesOutput
  rw [output_of_command hcommand]
  split
  · exact hwritten
  · exact .untouched rfl

/-- Three scripts, two of them with the same dependency file. -/
def threeScripts : Batch := Batch.of { withDependencies := true } ["a.rs", "sub/a.rs", "b.rs"]

/-- A backend that compiles the first two of them. -/
def threeAnswers : Session where
  outcomes := [.exited 0 [], .exited 0 [], .exited 1 []]
  touch := writesOutput

def threeWorld : World Session := { freshWorld [] [] with outside := threeAnswers }

theorem compile_semantics_three :
    Sound { toolchain := {} } threeWorld.outside.outcomes ∧ Unhindered { toolchain := {} } threeScripts threeWorld ∧
      Tidy { toolchain := {} } threeScripts threeWorld ∧
      ∃ good after, Semantics { toolchain := {} } threeScripts threeWorld good after ∧
        HoldsRule after.disk threeScripts "sub/a.rs" ("a.bc", "a.d") := by
  have sound : Sound { toolchain := {} } threeWorld.outside.outcomes :=
    ⟨fun reason h => by simp [threeWorld, threeAnswers] at h, fun h => by simp [threeWorld, threeAnswers] at h⟩
  have unhindered : Unhindered { toolchain := {} } threeScripts threeWorld :=
    unhindered_of_clear (by decide +kernel)
  have tidy : Tidy { toolchain := {} } threeScripts threeWorld := by
    refine tidy_writesOutput rfl fun pair hpair => ?_
    obtain ⟨input, -, rfl⟩ := List.mem_map.1 hpair
    exact Disk.named_of_endsIn (Output.path_endsIn [] input .bitcode)
  have unlinked : threeWorld.disk.Unlinked := ⟨Disk.linkFree_of_entries fun p hp => absurd hp List.not_mem_nil, rfl⟩
  obtain ⟨good, after, h⟩ := (compile_semantics _ _ _ sound unhindered).2 fun _ _ => ⟨_, if_neg (by decide +kernel)⟩
  refine ⟨sound, unhindered, tidy, good, after, h, ?_⟩
  refine h.wholePlan unlinked tidy _ _ rfl rfl 1 _ _ ⟨rfl, rfl, rfl, .inr ⟨[], rfl⟩⟩ ?_
  -- after the second script there is only the failed one
  intro j input pair hj due
  have hlt : j < 3 := due.lt
  obtain rfl : j = 2 := by omega
  rcases due.succeeded with htype | ⟨output, hanswer⟩
  · cases htype
  · cases hanswer

/-- The first output is there too, as the backend wrote it. -/
example : Disk.entry? (compile { toolchain := {} } threeScripts threeWorld).2.disk [("a.bc" : Text).toBytes] =
    some (.file ("BC" : Text).toBytes) := by decide +kernel

/-- The least number with more digits than can be written. -/
def longNumber : Int := (Nat.pow 10 Decimal.digitLimit : Nat)

theorem longNumber_not_written {text : Text} : Decimal.write longNumber ≠ .ok text := by
  have hlong : Nat.pow 10 Decimal.digitLimit ≤ longNumber.natAbs := by decide +kernel
  unfold Decimal.write
  rw [if_pos hlong]
  exact nofun

/-- A batch for a level that cannot be written. -/
def longLevel : Batch := Batch.of { targetApi := longNumber } ["a.rs"]

/-- **With a level that cannot be written a batch is broken off**, though nothing stands in the way. -/
theorem long_numbers_no_semantics :
    Sound { toolchain := {} } (freshWorld [] []).outside.outcomes ∧
      Unhindered { toolchain := {} } longLevel (freshWorld [] []) ∧
      ¬ ∃ good after, Semantics { toolchain := {} } longLevel (freshWorld [] []) good after := by
  have sound : Sound { toolchain := {} } (freshWorld [] []).outside.outcomes :=
    ⟨fun _ => List.not_mem_nil, fun h => absurd h List.not_mem_nil⟩
  refine ⟨sound, unhindered_of_clear (by decide +kernel), ?_⟩
  rintro ⟨good, after, h⟩
  obtain ⟨level, hlevel⟩ := withinDigits_of_ends sound h.ends (by decide) (by decide)
  exact longNumber_not_written hlevel

end ScriptDriver.Backend
