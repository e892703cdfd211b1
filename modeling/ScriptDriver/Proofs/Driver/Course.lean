import ScriptDriver.Driver
import ScriptDriver.Proofs.Compiler.Watched
import ScriptDriver.Proofs.Settings.Resolution
/-!
# Course — what a run comes to

A run that gets through expansion and resolution does one of five things, by what its command line asks for: it stops at
errors, shows the help screen, shows the version banner, reports that there are no inputs, or compiles.  Only the last
one has anything to do with compilers, and then it is four calls.
-/
namespace ScriptDriver

open CommandLine (standard)
open ResponseFile (Expander ofDisk)

variable {X C E : Type}

/-- Whether resolving a command line reports an error. -/
def Fails (defaults : Settings) (args : List Text) : Prop :=
  ∃ p ∈ (resolve defaults args).reports, p.severity.fails = true

/-- Whether one of the names stands at the place of an option. -/
def AsksFor (names args : List Text) : Prop := ∃ name ∈ names, name ∈ spellings args

/-- The exit status of a run, by what came of its compilation. -/
def statusOf : Except E Bool → Except (RunFault E) Nat
  | .ok true => .ok 0
  | .ok false => .ok 1
  | .error e => .error (.compiler e)

def Run.noInputReports (run : Run X E) : List Diagnostic :=
  match run.reported with
  | some (_, engine) => engine.reported.filter (·.id = .noInputFiles)
  | none => []

/-- **The course of a run** on the world `w` after some calls: `args` is the expanded command line, and `inputs` are the
inputs it was resolved to.  No two cases go together, and one of them is there. -/
structure Run.Course (run : Run (Watched X E) E) (t : Toolchain) (args inputs : List Text) (w : World X)
    (calls : List (Call E)) : Prop where
  failed : Fails t.settings args →
    run.result = .ok 1 ∧ run.world.out = w.out ∧ run.noInputReports = [] ∧ run.world.outside.calls = calls
  helped : ¬ Fails t.settings args → AsksFor helpSpellings args →
    run.result = .ok 0 ∧ run.world.out = standard.printHelp w.out (programName args) title ∧
      run.noInputReports = [] ∧ run.world.outside.calls = calls
  versioned : ¬ Fails t.settings args → ¬ AsksFor helpSpellings args → AsksFor versionSpellings args →
    run.result = .ok 0 ∧ run.world.out = printBanner w.out run.driver.platform ∧ run.noInputReports = [] ∧
      run.world.outside.calls = calls
  empty : ¬ Fails t.settings args → ¬ AsksFor helpSpellings args → ¬ AsksFor versionSpellings args → inputs = [] →
    run.result = .ok 1 ∧ run.world.out = w.out ∧ run.noInputReports = [.of .noInputFiles []] ∧
      run.world.outside.calls = calls
  compiled : ¬ Fails t.settings args → ¬ AsksFor helpSpellings args → ¬ AsksFor versionSpellings args →
    inputs ≠ [] → ∃ result, run.result = statusOf result ∧ run.noInputReports = [] ∧
      run.world.outside.calls =
        calls ++ batchCalls calls.length t.target (.of (resolve t.settings args).settings inputs) result

/-! ## Up to the request -/

theorem skippedWarning_complete (name : Text) : (skippedWarning name).Complete := Nat.le_refl 1

theorem World.printedBy_frame (w : World X) (e : Diagnostic.Engine) :
    (w.printedBy e).disk = w.disk ∧ (w.printedBy e).out = w.out ∧ (w.printedBy e).outside = w.outside := by
  unfold World.printedBy
  cases e.printer <;> exact ⟨rfl, rfl, rfl⟩

theorem engine_reported (d : Driver) (prog : Text) (w : World X) : (d.engine prog w).reported = [] := by
  unfold Driver.engine
  cases d.prints <;> rfl

/-- Every response file that was left out is reported. -/
theorem Driver.addAll_skipped (d : Driver) (prog : Text) (skipped : List Text) (w : World X) :
    ∃ engine, (d.engine prog w).addAll (skipped.map skippedWarning) = (engine, none) ∧
      engine.reported = skipped.map skippedWarning := by
  obtain ⟨engine, hadd, hreported⟩ := Diagnostic.Engine.addAll_of_complete (skipped.map skippedWarning)
    (d.engine prog w) fun p hp => by
      obtain ⟨name, -, rfl⟩ := List.mem_map.1 hp
      exact skippedWarning_complete name
  exact ⟨engine, hadd, by rw [hreported, engine_reported, List.nil_append]⟩

/-- **A run comes down to what its command line asks for**, with every problem reported and nothing but the error
console touched. -/
theorem run_eq_serve (kind : Toolchain → CompilerKind X C E) {d : Driver} {argv : List Text} {w : World X}
    {t : Toolchain} {args : List Text} {x : Expander} {inputs : List Text} (configured : d.configured w.disk = .ok t)
    (expanded : Expander.expand {} (ofDisk w.disk) argv = (.ok args, x))
    (resolved : (resolve t.settings args).inputs = .ok inputs) :
    ∃ engine w', engine.reported = x.skipped.map skippedWarning ++ (resolve t.settings args).reports ∧
      w'.disk = w.disk ∧ w'.out = w.out ∧ w'.outside = w.outside ∧
      d.run kind argv w = Driver.serve (kind t) ⟨{ d with toolchain := some t }, programName args, engine⟩
        (resolve t.settings args).settings inputs w' := by
  obtain ⟨e₁, h₁, hr₁⟩ := d.addAll_skipped (programName args) x.skipped w
  obtain ⟨e₂, h₂, hr₂⟩ := Diagnostic.Engine.addAll_of_complete (resolve t.settings args).reports e₁
    fun p hp => (resolve_ofCommandLine t.settings args p hp).complete
  obtain ⟨hd₁, ho₁, hx₁⟩ := w.printedBy_frame e₁
  obtain ⟨hd₂, ho₂, hx₂⟩ := (w.printedBy e₁).printedBy_frame e₂
  refine ⟨e₂, (w.printedBy e₁).printedBy e₂, ?_, hd₂.trans hd₁, ho₂.trans ho₁, hx₂.trans hx₁, ?_⟩
  · rw [hr₂, hr₁]
  · simp only [Driver.run, expanded, Driver.runExpanded, h₁, configured, Driver.resolveAndServe, h₂, resolved]

/-! ## The request -/

theorem failed_iff_fails {engine : Diagnostic.Engine} {skipped : List Text} {defaults : Settings} {args : List Text}
    (h : engine.reported = skipped.map skippedWarning ++ (resolve defaults args).reports) :
    engine.failed = true ↔ Fails defaults args := by
  rw [Diagnostic.Engine.failed_iff, h]
  constructor
  · rintro ⟨p, hp, hf⟩
    rcases List.mem_append.1 hp with hp | hp
    · obtain ⟨name, -, rfl⟩ := List.mem_map.1 hp
      cases hf
    · exact ⟨p, hp, hf⟩
  · rintro ⟨p, hp, hf⟩
    exact ⟨p, List.mem_append.2 (.inr hp), hf⟩

theorem filter_noInputFiles {skipped : List Text} {defaults : Settings} {args : List Text} :
    (skipped.map skippedWarning ++ (resolve defaults args).reports).filter (·.id = .noInputFiles) = [] := by
  rw [List.filter_eq_nil_iff]
  intro p hp
  rcases List.mem_append.1 hp with hp | hp
  · obtain ⟨name, -, rfl⟩ := List.mem_map.1 hp
    exact Bool.false_ne_true
  · simpa using (resolve_ofCommandLine defaults args p hp).ofOptions

section
variable {kind : CompilerKind X C E} {s : Driver.Stage} {settings : Settings} {inputs : List Text} {w : World X}

theorem serve_failed (hf : s.engine.failed = true) :
    Driver.serve kind s settings inputs w = s.finish (.ok 1) w := by
  simp only [Driver.serve, Request.of, hf, if_true]

theorem serve_help (hf : s.engine.failed = false) (hh : settings.showHelp = true) :
    Driver.serve kind s settings inputs w =
      s.finish (.ok 0) { w with out := standard.printHelp w.out s.prog title } := by
  simp only [Driver.serve, Request.of, hf, hh, if_true, Bool.false_eq_true, if_false]

theorem serve_version (hf : s.engine.failed = false) (hh : settings.showHelp = false)
    (hv : settings.showVersion = true) :
    Driver.serve kind s settings inputs w =
      s.finish (.ok 0) { w with out := printBanner w.out s.driver.platform } := by
  simp only [Driver.serve, Request.of, hf, hh, hv, if_true, Bool.false_eq_true, if_false]

theorem serve_inputs (kind : CompilerKind X C E) (hf : s.engine.failed = false) (hh : settings.showHelp = false)
    (hv : settings.showVersion = false) (hi : inputs = []) :
    ∃ engine, engine.reported = s.engine.reported ++ [.of .noInputFiles []] ∧
      Driver.serve kind s settings inputs w = { s with engine }.finish (.ok 1) (w.printedBy engine) := by
  obtain ⟨engine, hadd, hr⟩ := s.engine.add_of_complete (d := .of .noInputFiles []) (Nat.le_refl 0)
  refine ⟨engine, hr, ?_⟩
  simp only [Driver.serve, Request.of, hf, hh, hv, hi, if_true, Bool.false_eq_true, if_false, hadd]

theorem serve_compile (hf : s.engine.failed = false) (hh : settings.showHelp = false)
    (hv : settings.showVersion = false) (hi : inputs ≠ []) :
    Driver.serve kind s settings inputs w =
      s.finish (statusOf (compileOnce kind settings.target (.of settings inputs) w).1)
        (compileOnce kind settings.target (.of settings inputs) w).2 := by
  simp only [Driver.serve, Request.of, hf, hh, hv, hi, Bool.false_eq_true, if_false]
  rcases compileOnce kind settings.target (.of settings inputs) w with ⟨e | good, after⟩
  · rfl
  · cases good <;> rfl

end

/-! ## Watching a run -/

def Run.noted (run : Run X E) (calls : List (Call E)) : Run (Watched X E) E :=
  ⟨run.result, run.reported, run.driver, run.world.noted calls⟩

theorem printedBy_noted (w : World X) (calls : List (Call E)) (e : Diagnostic.Engine) :
    (w.noted calls).printedBy e = (w.printedBy e).noted calls := by
  unfold World.printedBy
  cases e.printer <;> rfl

theorem finish_noted (s : Driver.Stage) (result : Except (RunFault E) Nat) (w : World X) (calls : List (Call E)) :
    ∃ more, s.finish result (w.noted calls) = (s.finish result w).noted (calls ++ more) :=
  ⟨[], by rw [List.append_nil]; rfl⟩

theorem serve_noted (kind : CompilerKind X C E) (s : Driver.Stage) (settings : Settings) (inputs : List Text)
    (w : World X) (calls : List (Call E)) : ∃ more,
      Driver.serve kind.watched s settings inputs (w.noted calls) =
        (Driver.serve kind s settings inputs w).noted (calls ++ more) := by
  unfold Driver.serve
  cases Request.of s.engine.failed settings inputs with
  | nothing => exact finish_noted s _ w calls
  | help => exact finish_noted s _ { w with out := standard.printHelp w.out s.prog title } calls
  | version => exact finish_noted s _ { w with out := printBanner w.out s.driver.platform } calls
  | inputs =>
    simp only
    rcases s.engine.add (.of .noInputFiles []) with ⟨engine, _ | e⟩ <;> simp only [printedBy_noted] <;>
      exact finish_noted _ _ _ calls
  | compile =>
    obtain ⟨more, h⟩ := compileOnce_plain kind settings.target (.of settings inputs) w calls
    simp only [h]
    refine ⟨more, ?_⟩
    rcases compileOnce kind settings.target (.of settings inputs) w with ⟨e | good, after⟩ <;> rfl

theorem resolveAndServe_noted (kind : CompilerKind X C E) (s : Driver.Stage) (defaults : Settings) (args : List Text)
    (w : World X) (calls : List (Call E)) : ∃ more,
      Driver.resolveAndServe kind.watched s defaults args (w.noted calls) =
        (Driver.resolveAndServe kind s defaults args w).noted (calls ++ more) := by
  simp only [Driver.resolveAndServe]
  rcases s.engine.addAll (resolve defaults args).reports with ⟨engine, _ | e⟩
  · simp only [printedBy_noted]
    cases (resolve defaults args).inputs with
    | error e => exact finish_noted _ _ _ calls
    | ok inputs => exact serve_noted kind _ _ inputs _ calls
  · simp only [printedBy_noted]
    exact finish_noted _ _ _ calls

/-- **Watching changes nothing** about a run but the notes. -/
theorem run_noted (kind : Toolchain → CompilerKind X C E) (d : Driver) (argv : List Text) (w : World X)
    (calls : List (Call E)) : ∃ more,
      d.run (fun t => (kind t).watched) argv (w.noted calls) = (d.run kind argv w).noted (calls ++ more) := by
  simp only [Driver.run, show (w.noted calls).disk = w.disk from rfl]
  rcases Expander.expand {} (ofDisk w.disk) argv with ⟨e | args, x⟩
  · exact ⟨[], by rw [List.append_nil]; rfl⟩
  · simp only [Driver.runExpanded, show d.engine (programName args) (w.noted calls) = d.engine (programName args) w
      from rfl, show (w.noted calls).disk = w.disk from rfl]
    rcases (d.engine (programName args) w).addAll (x.skipped.map skippedWarning) with ⟨engine, _ | e⟩
    · simp only [printedBy_noted]
      cases d.configured w.disk with
      | error e => exact finish_noted _ _ _ calls
      | ok t => exact resolveAndServe_noted (kind t) _ t.settings args _ calls
    · simp only [printedBy_noted]
      exact finish_noted _ _ _ calls

/-- **A run takes its course.**  Once the command line has been expanded and resolved, whatever the disk, the toolchain
and the kind of compiler, and with a kind that does not fail to be made, set up and put away: errors end the run with
status 1; without errors the help screen or else the version banner is shown, with status 0; without inputs just that is
reported, with status 1; and otherwise one compiler is made, set up for the target of the toolchain, given the batch and
put away, and the status is 0 exactly if the batch was good. -/
theorem run_course {kind : Toolchain → CompilerKind X C E} (reliable : ∀ t, (kind t).Reliable) {d : Driver}
    {argv : List Text} {w : World X} (calls : List (Call E)) {t : Toolchain} {args : List Text} {x : Expander}
    {inputs : List Text} (configured : d.configured w.disk = .ok t)
    (expanded : Expander.expand {} (ofDisk w.disk) argv = (.ok args, x))
    (resolved : (resolve t.settings args).inputs = .ok inputs) :
    (d.run (fun t => (kind t).watched) argv (w.noted calls)).Course t args inputs w calls := by
  obtain ⟨engine, w', hr, -, hout, houtside, hrun⟩ :=
    run_eq_serve (fun t => (kind t).watched) (w := w.noted calls) configured expanded resolved
  have hcalls : w'.outside.calls = calls := by rw [houtside]; rfl
  have hfails := failed_iff_fails hr
  have hhelp := resolve_showHelp t.settings args rfl
  have hversion := resolve_showVersion t.settings args rfl
  have hnone : engine.reported.filter (·.id = .noInputFiles) = [] := by rw [hr]; exact filter_noInputFiles
  rw [hrun]
  constructor
  case failed =>
    intro hf
    rw [serve_failed (hfails.2 hf)]
    exact ⟨rfl, hout, hnone, hcalls⟩
  case helped =>
    intro hf hh
    rw [serve_help (Bool.eq_false_iff.2 (mt hfails.1 hf)) (hhelp.2 hh)]
    exact ⟨rfl, congrArg (standard.printHelp · (programName args) title) hout, hnone, hcalls⟩
  case versioned =>
    intro hf hh hv
    rw [serve_version (Bool.eq_false_iff.2 (mt hfails.1 hf)) (Bool.eq_false_iff.2 (mt hhelp.1 hh)) (hversion.2 hv)]
    exact ⟨rfl, congrArg (printBanner · d.platform) hout, hnone, hcalls⟩
  case empty =>
    intro hf hh hv hi
    obtain ⟨engine', hr', hserve⟩ := serve_inputs (kind t).watched (w := w')
      (s := ⟨{ d with toolchain := some t }, programName args, engine⟩) (Bool.eq_false_iff.2 (mt hfails.1 hf))
      (Bool.eq_false_iff.2 (mt hhelp.1 hh)) (Bool.eq_false_iff.2 (mt hversion.1 hv)) hi
    obtain ⟨-, ho, hx⟩ := w'.printedBy_frame engine'
    rw [hserve]
    refine ⟨rfl, ho.trans hout, ?_, (congrArg Watched.calls hx).trans hcalls⟩
    show engine'.reported.filter (·.id = .noInputFiles) = _
    rw [hr', List.filter_append, hnone]
    rfl
  case compiled =>
    intro hf hh hv hi
    rw [serve_compile (Bool.eq_false_iff.2 (mt hfails.1 hf)) (Bool.eq_false_iff.2 (mt hhelp.1 hh))
      (Bool.eq_false_iff.2 (mt hversion.1 hv)) hi, resolve_target]
    obtain ⟨result, after, hcompile⟩ := compileOnce_watched (reliable t) t.settings.target
      (.of (resolve t.settings args).settings inputs) w'.plain w'.outside.calls
    rw [show w' = w'.plain.noted w'.outside.calls from rfl, hcompile]
    exact ⟨result, rfl, hnone, by rw [← hcalls]; rfl⟩

/-- Compilers that find every batch good and leave the world alone. -/
def contentKind : CompilerKind Unit Unit Unit where
  make := fun w => (.ok (), w)
  setUp := fun _ _ w => (.ok (), w)
  compile := fun _ _ w => (.ok true, w)
  putAway := fun _ w => (none, w)

/-- Nothing on the disk and nothing printed. -/
def blankWorld : World Unit := ⟨⟨[], []⟩, .blank 80, .blank 80, ()⟩

/-- A command line with two scripts to be compiled. -/
def twoInputs : List Text := ["rscc", "a.rs", "b.rs"]

theorem run_course_compiled :
    ((contentKind.Reliable ∧ ({ toolchain := some {} } : Driver).configured blankWorld.disk = .ok {}) ∧
      Expander.expand {} (ofDisk blankWorld.disk) twoInputs = (.ok twoInputs, {}) ∧
      (resolve (Toolchain.settings {}) twoInputs).inputs = .ok ["a.rs", "b.rs"]) ∧
    (({ toolchain := some {} } : Driver).run (fun _ => contentKind.watched) twoInputs (blankWorld.noted [])).Course {}
      twoInputs ["a.rs", "b.rs"] blankWorld [] := by
  have reliable : contentKind.Reliable := ⟨fun w => ⟨(), w, rfl⟩, fun _ _ w => ⟨(), w, rfl⟩, fun _ w => ⟨w, rfl⟩⟩
  have expanded : Expander.expand {} (ofDisk blankWorld.disk) twoInputs = (.ok twoInputs, {}) := by rfl
  have resolved : (resolve (Toolchain.settings {}) twoInputs).inputs = .ok ["a.rs", "b.rs"] := by rfl
  exact ⟨⟨⟨reliable, rfl⟩, expanded, resolved⟩, run_course (fun _ => reliable) [] rfl expanded resolved⟩

end ScriptDriver
