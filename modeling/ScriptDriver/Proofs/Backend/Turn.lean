import ScriptDriver.Backend.Compile
import ScriptDriver.Proofs.File.Refusal
import ScriptDriver.Proofs.File.WorkingDirectory
/-!
# Turn — one script of a batch

A script's turn makes the directory of its output, runs the backend, and writes the dependency file if the script was
compiled.  Here is what each step comes to, and which of them end the batch (`play_of_unguarded`) or leave it going with
the script's failure reported (`play_kept`).
-/
namespace ScriptDriver.Backend

open File (Path Disk)

/-- The bits of the greatest number of seconds that can be waited for. -/
def waitBits : Nat := 1024

/-- A script with the dependency pair that goes with it, and the world in which its turn comes. -/
structure Turn where
  pair : Text × Text
  dependency : Option (Text × Text)
  world : World Session

namespace Turn

def play (c : Compiler) (b : Batch) (t : Turn) : Except Fault Bool × World Session :=
  compileScript c b t.pair t.dependency t.world

/-- The directory of the output is needed and cannot be made. -/
def NoDirectory (b : Batch) (t : Turn) (e : File.Fault) : Prop :=
  b.outputType ≠ .dependency ∧ b.outputType ≠ .nothing ∧
    (t.world.disk.ensureParent (Path.ofText t.pair.2)).2 = some e

/-- The disk with the directory of the output. -/
def disk (b : Batch) (t : Turn) : Disk :=
  if b.outputType = .dependency ∨ b.outputType = .nothing then t.world.disk
  else (t.world.disk.ensureParent (Path.ofText t.pair.2)).1

/-- How the next run of the backend ends. -/
def answer (t : Turn) : Outcome := t.world.outside.outcomes.headD (.exited 0 [])

/-- The disk that the run leaves, if there is one. -/
def left (c : Compiler) (b : Batch) (t : Turn) : Disk :=
  if b.outputType = .dependency then t.disk b
  else
    match c.command t.world.disk.workingDirectory (scriptOf b t.pair) with
    | .ok command => t.world.outside.leaves ⟨command, c.toolchain.timeout⟩ t.answer (t.disk b)
    | .error _ => t.disk b

/-- Nothing had to be run, or the run succeeded. -/
def Compiled (b : Batch) (t : Turn) : Prop :=
  b.outputType = .dependency ∨ (∀ e, ¬ t.NoDirectory b e) ∧ ∃ output, t.answer = .exited 0 output

/-- The script was compiled and its dependency file is wanted. -/
def Due (b : Batch) (t : Turn) (pair : Text × Text) : Prop :=
  t.Compiled b ∧ b.withDependencies = true ∧ t.dependency = some pair

/-- What writing the dependency file comes to. -/
def writing (c : Compiler) (b : Batch) (t : Turn) (pair : Text × Text) : Disk × Option File.Fault :=
  writeRule pair.2 (rule (pair.1 :: b.dependencyTargets) [t.pair.1]) (t.left c b)

/-- The dependency file is due and cannot be written. -/
def NoRule (c : Compiler) (b : Batch) (t : Turn) (pair : Text × Text) (e : File.Fault) : Prop :=
  t.Due b pair ∧ (t.writing c b pair).2 = some e

/-- The script was compiled and has its dependency file if one is wanted. -/
def Good (c : Compiler) (b : Batch) (t : Turn) : Prop := t.Compiled b ∧ ∀ pair e, ¬ t.NoRule c b pair e

/-- **What ends a batch**: an output directory that cannot be made; a level with too many digits; and a dependency file
that cannot be written for another reason than that the file system refuses. -/
inductive Unguarded (c : Compiler) (b : Batch) (t : Turn) : Prop where
  | directory {e : File.Fault} (missing : t.NoDirectory b e)
  | level {e : Decimal.TooLong} (runs : b.outputType ≠ .dependency) (long : Decimal.write b.targetApi = .error e)
  | rule {pair : Text × Text} {e : File.Fault} (missing : t.NoRule c b pair e) (escapes : e.isRefusal = false)

/-- **A turn as it should be**, whatever happens in it: it ends, it is good exactly if all was done, the backend is run
once if it is needed, the dependency file is written if it is due and nothing is otherwise, and whatever could not be
done is reported. -/
structure Kept (c : Compiler) (b : Batch) (t : Turn) : Prop where
  result : ∃ good, (t.play c b).1 = .ok good ∧ (good = true ↔ t.Good c b)
  noDirectory : ∀ e, t.NoDirectory b e → ∃ message, (t.play c b).2.err = t.world.err.printError message
  noRule : ∀ pair e, t.NoRule c b pair e → (t.play c b).2.err =
    t.world.err.printError ("cannot write dependency file '" ++ pair.2 ++ "': " ++ e.message)
  run : b.outputType ≠ .dependency → ∃ command,
    c.command t.world.disk.workingDirectory (scriptOf b t.pair) = .ok command ∧
      (t.play c b).2.outside = (t.world.outside.run ⟨command, c.toolchain.timeout⟩).2 ∧
      ∀ complaint, complaint? t.pair.1 (command.headD []) c.toolchain.timeout t.answer = .ok (some complaint) →
        (t.play c b).2.err = complaint.print t.world.err
  noRun : b.outputType = .dependency → (t.play c b).2.outside = t.world.outside
  written : ∀ pair, t.Due b pair → (t.play c b).2.disk = (t.writing c b pair).1
  unwritten : (∀ pair, ¬ t.Due b pair) → (t.play c b).2.disk = t.left c b

/-- **An answer about the run**: nothing happened that nobody expects, and a run that took too long had a limit that can be
waited for. -/
structure Sound (c : Compiler) (t : Turn) : Prop where
  expected : ∀ reason, t.answer ≠ .crashed reason
  limit : t.answer = .timedOut → c.toolchain.timeout.natAbs < Nat.pow 2 waitBits

end Turn

/-! ## Answers of the backend -/

theorem Session.run_fst (s : Session) (r : Run) : (s.run r).1 = s.outcomes.headD (.exited 0 []) := by
  unfold Session.run
  cases s.outcomes <;> rfl

theorem Session.run_runs (s : Session) (r : Run) : (s.run r).2.runs = s.runs ++ [r] := by
  unfold Session.run
  cases s.outcomes <;> rfl

theorem Session.run_outcomes (s : Session) (r : Run) : (s.run r).2.outcomes ⊆ s.outcomes := by
  unfold Session.run
  split
  · exact List.Subset.refl _
  · rename_i o rest h
    rw [h]
    exact List.subset_cons_self o rest

theorem Session.run_touch (s : Session) (r : Run) : (s.run r).2.touch = s.touch := by
  unfold Session.run
  cases s.outcomes <;> rfl

theorem complaint?_none {input prog : Text} {timeout : Int} {o : Outcome} :
    complaint? input prog timeout o = .ok none ↔ ∃ output, o = .exited 0 output := by
  unfold complaint?
  split
  · rename_i status output
    split
    · rename_i hzero
      subst hzero
      exact ⟨fun _ => ⟨output, rfl⟩, fun _ => rfl⟩
    · rename_i hzero
      constructor
      · exact nofun
      · rintro ⟨output, h⟩
        cases h
        exact absurd rfl hzero
  · split <;> exact ⟨nofun, nofun⟩
  all_goals exact ⟨nofun, nofun⟩

theorem complaint?_error {input prog : Text} {timeout : Int} {o : Outcome} {e : Fault}
    (h : complaint? input prog timeout o = .error e) :
    (o = .timedOut ∧ ∃ e, Decimal.write timeout = .error e) ∨ ∃ reason, o = .crashed reason := by
  unfold complaint? at h
  split at h
  · split at h <;> cases h
  · split at h
    · cases h
    · rename_i hlong
      exact .inl ⟨rfl, _, hlong⟩
  · cases h
  · cases h
  · cases h
  · exact .inr ⟨_, rfl⟩

/-- A limit that can be waited for can be written. -/
theorem write_of_wait {limit : Int} (h : limit.natAbs < Nat.pow 2 waitBits) :
    Decimal.write limit = .ok (Text.ofInt limit) := by
  have hpow : ∀ n m, n ≤ m → Nat.pow 2 n ≤ Nat.pow 10 m := fun n m hn =>
    Nat.le_trans (Nat.pow_le_pow_left (by decide) n) (Nat.pow_le_pow_right (by decide) hn)
  exact if_neg (Nat.not_le.2 (Nat.lt_of_lt_of_le h (hpow _ _ (by decide))))

/-! ## Commands -/

theorem flags_ok {type : OutputType} (h : type ≠ .dependency) : ∃ words, flags type = .ok words := by
  cases type
  case dependency => exact absurd rfl h
  all_goals exact ⟨_, rfl⟩

theorem command_of_level {c : Compiler} {here : Path} {s : Script} {e : Decimal.TooLong}
    (h : Decimal.write s.targetApi = .error e) : c.command here s = .error (.level e) := by
  unfold Compiler.command command
  rw [h]

theorem command_ok (c : Compiler) (here : Path) {s : Script} {level : Text} (htype : s.outputType ≠ .dependency)
    (h : Decimal.write s.targetApi = .ok level) : ∃ command, c.command here s = .ok command := by
  obtain ⟨words, hwords⟩ := flags_ok htype
  unfold Compiler.command command
  rw [h]
  simp only [hwords]
  exact ⟨_, rfl⟩

/-! ## The run of a turn -/

namespace Turn

def prepared (b : Batch) (t : Turn) : World Session := { t.world with disk := t.disk b }

def ran (c : Compiler) (b : Batch) (t : Turn) (command : List Text) : World Session :=
  { t.world with disk := t.left c b, outside := (t.world.outside.run ⟨command, c.toolchain.timeout⟩).2 }

/-- The rest of a turn after the script has been compiled. -/
def conclude (b : Batch) (t : Turn) (w : World Session) : Except Fault Bool × World Session :=
  match t.dependency with
  | some pair =>
    if b.withDependencies then noteDependency t.pair.1 b.dependencyTargets pair w else (.ok true, w)
  | none => (.ok true, w)

def afterRun (b : Batch) (t : Turn) (run : Except Fault Bool × World Session) :
    Except Fault Bool × World Session :=
  match run with
  | (.error e, w) => (.error e, w)
  | (.ok false, w) => (.ok false, w)
  | (.ok true, w) => t.conclude b w

variable {c : Compiler} {b : Batch} {t : Turn}

theorem ran_disk (c : Compiler) (b : Batch) (t : Turn) (command : List Text) : (t.ran c b command).disk = t.left c b := by
  unfold ran
  rfl

theorem disk_here (b : Batch) (t : Turn) : (t.disk b).here = t.world.disk.here := by
  unfold disk
  split
  · rfl
  · exact (Disk.ensureParent_grows _ _).here

theorem disk_workingDirectory (b : Batch) (t : Turn) :
    (t.disk b).workingDirectory = t.world.disk.workingDirectory := by
  unfold Disk.workingDirectory
  rw [disk_here]

theorem left_of_command {command : List Text} (htype : b.outputType ≠ .dependency)
    (hcommand : c.command t.world.disk.workingDirectory (scriptOf b t.pair) = .ok command) :
    t.left c b = t.world.outside.leaves ⟨command, c.toolchain.timeout⟩ t.answer (t.disk b) := by
  unfold left
  rw [if_neg htype, hcommand]

theorem left_of_dependency (c : Compiler) (h : b.outputType = .dependency) : t.left c b = t.world.disk := by
  unfold left disk
  rw [if_pos h, if_pos (.inl h)]

theorem play_of_dependency (c : Compiler) (h : b.outputType = .dependency) : t.play c b = t.conclude b t.world := by
  unfold play compileScript
  rw [if_pos h]
  rfl

theorem play_of_run (c : Compiler) (h : b.outputType ≠ .dependency) :
    t.play c b = t.afterRun b (runScript c (scriptOf b t.pair) t.world) := by
  unfold play compileScript
  rw [if_neg h]
  rcases runScript c (scriptOf b t.pair) t.world with ⟨e | good, w⟩
  · rfl
  · cases good <;> rfl

theorem play_of_noDirectory {e : File.Fault} (h : t.NoDirectory b e) :
    t.play c b = (.error (.file e), t.prepared b) := by
  obtain ⟨hdependency, hnothing, hfault⟩ := h
  rw [play_of_run c hdependency]
  rcases hmade : t.world.disk.ensureParent (Path.ofText t.pair.2) with ⟨d, fault⟩
  rw [hmade] at hfault
  cases hfault
  simp only [runScript, scriptOf, hnothing, if_false, hmade, prepared, disk, hdependency, or_self, afterRun]

/-- With the directory of the output there, it is the command that decides. -/
theorem runScript_prepared (c : Compiler) (htype : b.outputType ≠ .dependency)
    (hdirectory : ∀ e, ¬ t.NoDirectory b e) :
    runScript c (scriptOf b t.pair) t.world =
      match c.command t.world.disk.workingDirectory (scriptOf b t.pair) with
      | .error e => (.error (.command e), t.prepared b)
      | .ok command => runFor t.pair.1 ⟨command, c.toolchain.timeout⟩ (t.prepared b) := by
  have hstep : (if b.outputType = .nothing then (t.world.disk, none)
      else t.world.disk.ensureParent (Path.ofText t.pair.2)) = (t.disk b, none) := by
    unfold disk
    split
    · rename_i hnothing
      rw [if_pos (.inr hnothing)]
    · rename_i hnothing
      rw [if_neg (not_or.2 ⟨htype, hnothing⟩)]
      rcases hmade : t.world.disk.ensureParent (Path.ofText t.pair.2) with ⟨d, _ | e⟩
      · rfl
      · exact absurd ⟨htype, hnothing, by rw [hmade]⟩ (hdirectory e)
  rw [← disk_workingDirectory b t]
  unfold runScript
  rw [show (scriptOf b t.pair).outputType = b.outputType from rfl, show (scriptOf b t.pair).output = t.pair.2 from rfl,
    hstep]
  dsimp only
  cases c.command (t.disk b).workingDirectory (scriptOf b t.pair) <;> rfl

theorem runFor_prepared {command : List Text} (htype : b.outputType ≠ .dependency)
    (hcommand : c.command t.world.disk.workingDirectory (scriptOf b t.pair) = .ok command) :
    runFor t.pair.1 ⟨command, c.toolchain.timeout⟩ (t.prepared b) =
      match complaint? t.pair.1 (command.headD []) c.toolchain.timeout t.answer with
      | .error e => (.error e, t.ran c b command)
      | .ok none => (.ok true, t.ran c b command)
      | .ok (some complaint) =>
        (.ok false, { t.ran c b command with err := complaint.print t.world.err }) := by
  rcases hrun : t.world.outside.run ⟨command, c.toolchain.timeout⟩ with ⟨outcome, session⟩
  have hanswer : t.answer = outcome := (Session.run_fst _ _).symm.trans (congrArg Prod.fst hrun)
  have hleft := left_of_command htype hcommand
  rw [hanswer] at hleft
  unfold runFor
  rw [hanswer]
  cases hcomplaint : complaint? t.pair.1 (command.headD []) c.toolchain.timeout outcome with
  | error e => simp only [prepared, ran, hrun, hcomplaint, hleft]
  | ok complaint => cases complaint <;> simp only [prepared, ran, hrun, hcomplaint, hleft]

/-- The turn with the directory of the output there, a level that can be written and its command. -/
theorem play_prepared {command : List Text} (htype : b.outputType ≠ .dependency)
    (hdirectory : ∀ e, ¬ t.NoDirectory b e)
    (hcommand : c.command t.world.disk.workingDirectory (scriptOf b t.pair) = .ok command) :
    t.play c b = t.afterRun b
      (match complaint? t.pair.1 (command.headD []) c.toolchain.timeout t.answer with
      | .error e => (.error e, t.ran c b command)
      | .ok none => (.ok true, t.ran c b command)
      | .ok (some complaint) =>
        (.ok false, { t.ran c b command with err := complaint.print t.world.err })) := by
  rw [play_of_run c htype, runScript_prepared c htype hdirectory, hcommand]
  dsimp only
  rw [runFor_prepared htype hcommand]

theorem play_of_level {e : Decimal.TooLong} (htype : b.outputType ≠ .dependency)
    (hdirectory : ∀ e, ¬ t.NoDirectory b e) (h : Decimal.write b.targetApi = .error e) :
    t.play c b = (.error (.command (.level e)), t.prepared b) := by
  rw [play_of_run c htype, runScript_prepared c htype hdirectory,
    command_of_level (s := scriptOf b t.pair) h]
  rfl

/-! ## The dependency file of a turn -/

theorem conclude_of_unwanted {w : World Session}
    (h : ∀ pair, b.withDependencies = true → t.dependency ≠ some pair) : t.conclude b w = (.ok true, w) := by
  unfold conclude
  split
  · rename_i pair hpair
    rw [if_neg fun hwanted => h pair hwanted hpair]
  · rfl

theorem conclude_of_wanted {pair : Text × Text} (w : World Session) (hwanted : b.withDependencies = true)
    (h : t.dependency = some pair) :
    t.conclude b w = noteDependency t.pair.1 b.dependencyTargets pair w := by
  unfold conclude
  rw [h]
  exact if_pos hwanted

theorem writeRule_error {path text : Text} {d : Disk} {e : File.Fault} (h : (writeRule path text d).2 = some e) :
    (∃ path, e.IsOf path) ∨ ((Path.ofText path).name = [] ∧ e = .unnamed (Path.ofText path)) ∨
      ∃ u, Charset.utf8.encode text = .error u ∧ e = .unencodable u := by
  unfold writeRule at h
  split at h
  · rename_i hparent
    cases h
    exact .inl (Disk.ensureParent_error (congrArg Prod.snd hparent))
  · exact Disk.writeAtomically_error h

/-- **What keeps a dependency file from being written though the file system does not refuse**: a null character in a
path, a path without a last part, or a rule with something that has no bytes. -/
theorem NoRule.escapes {pair : Text × Text} {e : File.Fault} (h : t.NoRule c b pair e) (escapes : e.isRefusal = false) :
    e = .nullCharacter ∨ (Path.ofText pair.2).name = [] ∨
      ∃ u, Charset.utf8.encode (rule (pair.1 :: b.dependencyTargets) [t.pair.1]) = .error u := by
  rcases writeRule_error h.2 with ⟨path, hrefusal | ⟨hnull, -⟩⟩ | ⟨hname, -⟩ | ⟨u, hencode, -⟩
  · rw [hrefusal] at escapes
    cases escapes
  · exact .inl hnull
  · exact .inr (.inl hname)
  · exact .inr (.inr ⟨u, hencode⟩)

/-- A dependency file that cannot be written, but not because the file system refuses, ends the batch. -/
theorem conclude_escaped {pair : Text × Text} {e : File.Fault} {w : World Session} (h : t.NoRule c b pair e)
    (escapes : e.isRefusal = false) (hdisk : w.disk = t.left c b) :
    ∃ after, t.conclude b w = (.error (.file e), after) := by
  obtain ⟨⟨-, hwanted, hpair⟩, hfault⟩ := h
  unfold writing at hfault
  rw [conclude_of_wanted w hwanted hpair]
  unfold noteDependency
  rw [hdisk]
  rcases hwrite : writeRule pair.2 (rule (pair.1 :: b.dependencyTargets) [t.pair.1]) (t.left c b) with ⟨d, fault⟩
  rw [hwrite] at hfault
  cases hfault
  cases e
  case refused => cases escapes
  all_goals exact ⟨_, rfl⟩

theorem Due.unique {pair pair' : Text × Text} (h : t.Due b pair) (h' : t.Due b pair') : pair = pair' :=
  Option.some.inj (h.2.2.symm.trans h'.2.2)

/-- A dependency file that is due is written, or the file system refuses it; that is reported, and the batch goes on. -/
theorem conclude_due {pair : Text × Text} {w : World Session} (due : t.Due b pair) (hdisk : w.disk = t.left c b)
    (guarded : ∀ e, t.NoRule c b pair e → e.isRefusal = true) :
    ∃ good after, t.conclude b w = (.ok good, after) ∧ (good = true ↔ ∀ e, ¬ t.NoRule c b pair e) ∧
      after.outside = w.outside ∧ after.disk = (t.writing c b pair).1 ∧ ∀ e, t.NoRule c b pair e →
        after.err = w.err.printError ("cannot write dependency file '" ++ pair.2 ++ "': " ++ e.message) := by
  have hconclude := conclude_of_wanted w due.2.1 due.2.2
  unfold noteDependency at hconclude
  rw [hdisk, show writeRule pair.2 _ (t.left c b) = t.writing c b pair from rfl] at hconclude
  rcases hwrite : t.writing c b pair with ⟨d, _ | e⟩
  · rw [hwrite] at hconclude
    have hwritten : ∀ e, ¬ t.NoRule c b pair e := fun e h => by
      have hfault := h.2
      rw [hwrite] at hfault
      cases hfault
    exact ⟨true, _, hconclude, ⟨fun _ => hwritten, fun _ => rfl⟩, rfl, rfl, fun e h => absurd h (hwritten e)⟩
  · rw [hwrite] at hconclude
    have hmissing : t.NoRule c b pair e := ⟨due, by rw [hwrite]⟩
    have hrefused := guarded e hmissing
    cases e
    case refused e =>
      refine ⟨false, _, hconclude, ⟨nofun, fun h => absurd hmissing (h _)⟩, rfl, rfl, fun e' h => ?_⟩
      have hfault := h.2
      rw [hwrite] at hfault
      cases hfault
      rfl
    all_goals cases hrefused

/-- **After a script has been compiled the batch goes on**, if nothing but the file system keeps a dependency file from
being written. -/
theorem conclude_kept {w : World Session} (hcompiled : t.Compiled b) (hdisk : w.disk = t.left c b)
    (guarded : ∀ pair e, t.NoRule c b pair e → e.isRefusal = true) :
    ∃ good after, t.conclude b w = (.ok good, after) ∧ (good = true ↔ ∀ pair e, ¬ t.NoRule c b pair e) ∧
      after.outside = w.outside ∧ (∀ pair, t.Due b pair → after.disk = (t.writing c b pair).1) ∧
      ((∀ pair, ¬ t.Due b pair) → after.disk = t.left c b) ∧ ∀ pair e, t.NoRule c b pair e →
        after.err = w.err.printError ("cannot write dependency file '" ++ pair.2 ++ "': " ++ e.message) := by
  by_cases hdue : ∃ pair, t.Due b pair
  · obtain ⟨pair, due⟩ := hdue
    obtain ⟨good, after, hconclude, hgood, houtside, hwritten, herr⟩ := conclude_due due hdisk (guarded pair)
    refine ⟨good, after, hconclude, hgood.trans ⟨fun h pair' e h' => ?_, fun h e => h pair e⟩, houtside,
      fun pair' due' => ?_, fun h => absurd due (h pair), fun pair' e h' => ?_⟩
    · obtain rfl := due.unique h'.1
      exact h e h'
    · obtain rfl := due.unique due'
      exact hwritten
    · obtain rfl := due.unique h'.1
      exact herr e h'
  · have hdue : ∀ pair, ¬ t.Due b pair := not_exists.1 hdue
    rw [conclude_of_unwanted fun pair hwanted hpair => hdue pair ⟨hcompiled, hwanted, hpair⟩]
    exact ⟨true, w, rfl, ⟨fun _ pair e h => hdue pair h.1, fun _ => rfl⟩, rfl, fun pair h => absurd h (hdue pair),
      fun _ => hdisk, fun pair e h => absurd h.1 (hdue pair)⟩

/-! ## What a turn leaves alone -/

theorem writeRule_here (path text : Text) (d : Disk) : (writeRule path text d).1.here = d.here := by
  have hparent := (d.ensureParent_grows (Path.ofText path)).here
  unfold writeRule
  split <;> rename_i hmade <;> rw [hmade] at hparent
  · exact hparent
  · exact (Disk.writeAtomically_here _ _ _ _).trans hparent

theorem noteDependency_frame (input : Text) (targets : List Text) (pair : Text × Text) (w : World Session) :
    (noteDependency input targets pair w).2.disk.here = w.disk.here ∧
      (noteDependency input targets pair w).2.outside = w.outside := by
  have hwritten := writeRule_here pair.2 (rule (pair.1 :: targets) [input]) w.disk
  unfold noteDependency
  rcases hwrite : writeRule pair.2 (rule (pair.1 :: targets) [input]) w.disk with ⟨d, fault⟩
  rw [hwrite] at hwritten
  rcases fault with _ | e
  · exact ⟨hwritten, rfl⟩
  · cases e <;> exact ⟨hwritten, rfl⟩

theorem conclude_frame (b : Batch) (t : Turn) (w : World Session) :
    (t.conclude b w).2.disk.here = w.disk.here ∧ (t.conclude b w).2.outside = w.outside := by
  unfold conclude
  split
  · split
    · exact noteDependency_frame _ _ _ w
    · exact ⟨rfl, rfl⟩
  · exact ⟨rfl, rfl⟩

theorem afterRun_frame (b : Batch) (t : Turn) (r : Except Fault Bool × World Session) :
    (t.afterRun b r).2.disk.here = r.2.disk.here ∧ (t.afterRun b r).2.outside = r.2.outside := by
  rcases r with ⟨e | good, w⟩
  · exact ⟨rfl, rfl⟩
  · cases good with
    | false => exact ⟨rfl, rfl⟩
    | true => exact conclude_frame b t w

theorem runFor_frame (input : Text) (r : Run) (w : World Session) :
    (runFor input r w).2.disk.here = w.disk.here ∧ (runFor input r w).2.outside = (w.outside.run r).2 := by
  unfold runFor
  rcases w.outside.run r with ⟨outcome, session⟩
  simp only
  split <;> exact ⟨rfl, rfl⟩

theorem runScript_frame (c : Compiler) (s : Script) (w : World Session) :
    (runScript c s w).2.disk.here = w.disk.here ∧
      ((runScript c s w).2.outside = w.outside ∨ ∃ r, c.command w.disk.workingDirectory s = .ok r.command ∧
        (runScript c s w).2.outside = (w.outside.run r).2) := by
  have hparent : (if s.outputType = .nothing then (w.disk, none) else w.disk.ensureParent (Path.ofText s.output)).1.here
      = w.disk.here := by
    split
    · rfl
    · exact (Disk.ensureParent_grows _ _).here
  unfold runScript
  split
  rename_i d fault hmade
  rw [hmade] at hparent
  split
  · exact ⟨hparent, .inl rfl⟩
  · dsimp only
    split
    · exact ⟨hparent, .inl rfl⟩
    · rename_i command hcommand
      obtain ⟨hdisk, houtside⟩ := runFor_frame s.input ⟨command, c.toolchain.timeout⟩ { w with disk := d }
      refine ⟨hdisk.trans hparent, .inr ⟨⟨command, c.toolchain.timeout⟩, ?_, houtside⟩⟩
      unfold Disk.workingDirectory at hcommand ⊢
      rw [← hparent]
      exact hcommand

/-- **A turn runs the command of its script or nothing**, and leaves the working directory. -/
theorem play_session (c : Compiler) (b : Batch) (t : Turn) :
    (t.play c b).2.disk.here = t.world.disk.here ∧
      ((t.play c b).2.outside = t.world.outside ∨
        ∃ r, c.command t.world.disk.workingDirectory (scriptOf b t.pair) = .ok r.command ∧
          (t.play c b).2.outside = (t.world.outside.run r).2) := by
  by_cases htype : b.outputType = .dependency
  · obtain ⟨hhere, houtside⟩ := conclude_frame b t t.world
    rw [play_of_dependency c htype, hhere, houtside]
    exact ⟨rfl, .inl rfl⟩
  · obtain ⟨hhere, houtside⟩ := afterRun_frame b t (runScript c (scriptOf b t.pair) t.world)
    rw [play_of_run c htype, hhere, houtside]
    exact runScript_frame c (scriptOf b t.pair) t.world

/-- **A turn leaves the working directory**, and uses up at most one answer. -/
theorem play_frame (c : Compiler) (b : Batch) (t : Turn) :
    (t.play c b).2.disk.here = t.world.disk.here ∧
      (t.play c b).2.outside.outcomes ⊆ t.world.outside.outcomes := by
  obtain ⟨hhere, hsession⟩ := play_session c b t
  refine ⟨hhere, ?_⟩
  rcases hsession with h | ⟨r, -, h⟩
  · rw [h]
    exact List.Subset.refl _
  · rw [h]
    exact Session.run_outcomes _ _

/-! ## Whole turns -/

/-- A compiled script is left with its dependency file to be written. -/
theorem play_of_compiled (c : Compiler) (hcompiled : t.Compiled b)
    (hlevel : b.outputType = .dependency ∨ ∃ level, Decimal.write b.targetApi = .ok level) :
    ∃ w, w.disk = t.left c b ∧ t.play c b = t.conclude b w := by
  by_cases htype : b.outputType = .dependency
  · exact ⟨t.world, (left_of_dependency c htype).symm, play_of_dependency c htype⟩
  · obtain ⟨hdirectory, hanswer⟩ := hcompiled.resolve_left htype
    obtain ⟨level, hwrite⟩ := hlevel.resolve_left htype
    obtain ⟨command, hcommand⟩ := command_ok c t.world.disk.workingDirectory (s := scriptOf b t.pair)
      htype hwrite
    refine ⟨t.ran c b command, rfl, ?_⟩
    rw [play_prepared htype hdirectory hcommand, complaint?_none.2 hanswer]
    rfl

/-- **What ends a batch ends it.** -/
theorem play_of_unguarded (h : t.Unguarded c b) : ∃ e after, t.play c b = (.error e, after) := by
  by_cases hdirectory : ∃ e, t.NoDirectory b e
  · obtain ⟨e, he⟩ := hdirectory
    exact ⟨_, _, play_of_noDirectory he⟩
  have hdirectory : ∀ e, ¬ t.NoDirectory b e := not_exists.1 hdirectory
  -- whatever it is that ends the batch, a level with too many digits ends it before
  have hlevel : b.outputType ≠ .dependency → (∀ level, Decimal.write b.targetApi ≠ .ok level) →
      ∃ e after, t.play c b = (.error e, after) := fun htype hlong => by
    cases hwrite : Decimal.write b.targetApi with
    | ok level => exact absurd hwrite (hlong level)
    | error e => exact ⟨_, _, play_of_level htype hdirectory hwrite⟩
  cases h with
  | directory missing => exact absurd missing (hdirectory _)
  | level runs long => exact hlevel runs fun level h => by rw [h] at long; cases long
  | rule missing escapes =>
    by_cases hlong : b.outputType = .dependency ∨ ∃ level, Decimal.write b.targetApi = .ok level
    · obtain ⟨w, hdisk, hplay⟩ := play_of_compiled c missing.1.1 hlong
      obtain ⟨after, h⟩ := conclude_escaped missing escapes hdisk
      exact ⟨_, after, hplay.trans h⟩
    · exact hlevel (fun h => hlong (.inl h)) fun level h => hlong (.inr ⟨level, h⟩)

theorem kept_of_dependency (c : Compiler) (htype : b.outputType = .dependency)
    (guarded : ∀ pair e, t.NoRule c b pair e → e.isRefusal = true) : t.Kept c b := by
  have hcompiled : t.Compiled b := .inl htype
  obtain ⟨good, after, hplay, hgood, houtside, hwritten, hunwritten, herr⟩ :=
    conclude_kept (w := t.world) hcompiled (left_of_dependency c htype).symm guarded
  rw [← play_of_dependency c htype] at hplay
  constructor
  case result => exact ⟨good, by rw [hplay], hgood.trans (and_iff_right hcompiled).symm⟩
  case noDirectory => exact fun e h => absurd htype h.1
  case noRule => rw [hplay]; exact herr
  case run => exact fun h => absurd htype h
  case noRun => rw [hplay]; exact fun _ => houtside
  case written => rw [hplay]; exact hwritten
  case unwritten => rw [hplay]; exact hunwritten

section
variable {command : List Text} (htype : b.outputType ≠ .dependency) (hdirectory : ∀ e, ¬ t.NoDirectory b e)
  (hcommand : c.command t.world.disk.workingDirectory (scriptOf b t.pair) = .ok command)
include htype hdirectory hcommand

theorem kept_of_success (hcomplaint : complaint? t.pair.1 (command.headD []) c.toolchain.timeout t.answer = .ok none)
    (guarded : ∀ pair e, t.NoRule c b pair e → e.isRefusal = true) : t.Kept c b := by
  have hcompiled : t.Compiled b := .inr ⟨hdirectory, complaint?_none.1 hcomplaint⟩
  have hplay := play_prepared htype hdirectory hcommand
  rw [hcomplaint] at hplay
  obtain ⟨good, after, hconclude, hgood, houtside, hwritten, hunwritten, herr⟩ :=
    conclude_kept (w := t.ran c b command) hcompiled (t.ran_disk c b command) guarded
  replace hplay : t.play c b = (.ok good, after) := hplay.trans hconclude
  constructor
  case result => exact ⟨good, by rw [hplay], hgood.trans (and_iff_right hcompiled).symm⟩
  case noDirectory => exact fun e h => absurd h (hdirectory e)
  case noRule => rw [hplay]; exact herr
  case run =>
    refine fun _ => ⟨command, hcommand, by rw [hplay, houtside]; rfl, fun complaint h => ?_⟩
    rw [hcomplaint] at h
    cases h
  case noRun => exact fun h => absurd h htype
  case written => rw [hplay]; exact hwritten
  case unwritten => rw [hplay]; exact hunwritten

theorem kept_of_complaint {complaint : Complaint}
    (hcomplaint : complaint? t.pair.1 (command.headD []) c.toolchain.timeout t.answer = .ok (some complaint)) :
    t.Kept c b := by
  have hfailed : ¬ t.Compiled b := by
    rintro (h | ⟨-, hanswer⟩)
    · exact htype h
    · rw [complaint?_none.2 hanswer] at hcomplaint
      cases hcomplaint
  have hplay := play_prepared htype hdirectory hcommand
  rw [hcomplaint] at hplay
  constructor
  case result => exact ⟨false, by rw [hplay]; rfl, ⟨nofun, fun h => absurd h.1 hfailed⟩⟩
  case noDirectory => exact fun e h => absurd h (hdirectory e)
  case noRule => exact fun pair e h => absurd h.1.1 hfailed
  case run =>
    refine fun _ => ⟨command, hcommand, by rw [hplay]; rfl, fun complaint' h => ?_⟩
    rw [hcomplaint] at h
    cases h
    rw [hplay]
    rfl
  case noRun => exact fun h => absurd h htype
  case written => exact fun pair h => absurd h.1 hfailed
  case unwritten => rw [hplay]; exact fun _ => rfl

end

/-- **A turn that nothing ends is as it should be.** -/
theorem play_kept (guarded : ¬ t.Unguarded c b) (sound : t.Sound c) : t.Kept c b := by
  have hrule : ∀ pair e, t.NoRule c b pair e → e.isRefusal = true := fun pair e h => by
    cases hrefusal : e.isRefusal with
    | true => rfl
    | false => exact absurd (.rule h hrefusal) guarded
  by_cases htype : b.outputType = .dependency
  · exact kept_of_dependency c htype hrule
  · have hdirectory : ∀ e, ¬ t.NoDirectory b e := fun e h => guarded (.directory h)
    obtain ⟨command, hcommand⟩ : ∃ command,
        c.command t.world.disk.workingDirectory (scriptOf b t.pair) = .ok command := by
      cases hlevel : Decimal.write b.targetApi with
      | error e => exact absurd (.level htype hlevel) guarded
      | ok level => exact command_ok c _ (s := scriptOf b t.pair) htype hlevel
    cases hcomplaint : complaint? t.pair.1 (command.headD []) c.toolchain.timeout t.answer with
    | error e =>
      rcases complaint?_error hcomplaint with ⟨hlate, e, hlong⟩ | ⟨reason, hcrashed⟩
      · rw [write_of_wait (sound.limit hlate)] at hlong
        cases hlong
      · exact absurd hcrashed (sound.expected reason)
    | ok complaint? =>
      cases complaint? with
      | none => exact kept_of_success htype hdirectory hcommand hcomplaint hrule
      | some complaint => exact kept_of_complaint htype hdirectory hcommand hcomplaint

theorem guarded_of_ends {good : Bool} (h : (t.play c b).1 = .ok good) : ¬ t.Unguarded c b := by
  intro hunguarded
  obtain ⟨e, after, hplay⟩ := play_of_unguarded hunguarded
  rw [hplay] at h
  cases h

theorem unguarded_of_fault (sound : t.Sound c) {e : Fault} (h : (t.play c b).1 = .error e) : t.Unguarded c b := by
  refine Classical.byContradiction fun hguarded => ?_
  obtain ⟨good, hgood, -⟩ := (play_kept hguarded sound).result
  rw [h] at hgood
  cases hgood

/-- **A turn is as it should be exactly if nothing ends the batch in it.** -/
theorem kept_iff (sound : t.Sound c) : t.Kept c b ↔ ¬ t.Unguarded c b := by
  constructor
  · intro hkept
    obtain ⟨good, hgood, -⟩ := hkept.result
    exact guarded_of_ends hgood
  · exact fun hguarded => play_kept hguarded sound

end Turn

end ScriptDriver.Backend
