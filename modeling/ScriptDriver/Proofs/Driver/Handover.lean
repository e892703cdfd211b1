import ScriptDriver.Proofs.Backend.Batch
import ScriptDriver.Proofs.Driver.Course
import ScriptDriver.Proofs.Settings.Respelling
import ScriptDriver.Proofs.Settings.Totality
/-!
# Handover — the batch that a compiler is given

A compiler looks dependency pairs up by their place, and relies on the driver for the rest.  Whatever the command line
and the configuration, the batch that is handed over is well-formed (`run_batch_wellFormed`): the settings of a command
line without problems are coherent, nothing with problems gets as far as a compiler, and the plan has a pair for every
input as soon as dependency files are wanted.
-/
namespace ScriptDriver

open CommandLine
open ResponseFile (Expander ofDisk)

/-! ## Well-formed batches -/

/-- **The dependency pair that goes with an input and its output.**  Both paths are derived from the input, and the one
that the run produces is the output itself; `dirs` are the directories of bitcode and of dependency files. -/
structure Batch.PairFor (b : Batch) (dirs : Text × Text) (output pair : Text × Text) : Prop where
  bitcode : pair.1 = Output.path dirs.1 output.1 .bitcode
  dependency : pair.2 = Output.path dirs.2 output.1 .dependency
  primaryBitcode : b.outputType = .bitcode → pair.1 = output.2
  primaryDependency : b.outputType = .dependency → pair.2 = output.2

/-- **A well-formed batch** for some inputs. -/
structure Batch.WellFormed (b : Batch) (dirs : Text × Text) (inputs : List Text) : Prop where
  some : inputs ≠ []
  outputs : b.plan.outputs.map Prod.fst = inputs
  noObject : b.outputType ≠ .object
  dependencyType : b.outputType = .dependency → b.withDependencies = true
  dependencies : b.withDependencies = true → b.outputType = .bitcode ∨ b.outputType = .dependency
  paired : b.withDependencies = true → List.Forall₂ (b.PairFor dirs) b.plan.outputs b.plan.dependencies
  unpaired : b.withDependencies = false → b.plan.dependencies = []

/-- What settings must agree on for their batches to be well-formed. -/
structure Settings.Coherent (s : Settings) : Prop where
  noObject : s.outputType ≠ .object
  dependencyType : s.outputType = .dependency → s.withDependencies = true
  dependencies : s.withDependencies = true → s.outputType = .bitcode ∨ s.outputType = .dependency

/-- The directories of the bitcode and of the dependency files that go with the outputs. -/
def Settings.pairDirs (s : Settings) : Text × Text :=
  (if s.outputType = .bitcode then s.outputDir else s.dependencyDir,
    if s.outputType = .dependency then s.outputDir else s.dependencyDir)

theorem pairFor_of (s : Settings) (inputs : List Text) (input : Text) :
    (Batch.of s inputs).PairFor s.pairDirs (input, Output.primary s input)
      (Output.dependencyPair s input (Output.primary s input)) := by
  unfold Output.dependencyPair Settings.pairDirs Output.primary
  constructor
  case bitcode =>
    dsimp only
    split
    · rename_i htype
      rw [htype]
    · rfl
  case dependency =>
    dsimp only
    split
    · rename_i htype
      rw [htype]
    · rfl
  case primaryBitcode => exact fun htype => if_pos htype
  case primaryDependency => exact fun htype => if_pos htype

/-- **Coherent settings make well-formed batches.** -/
theorem batch_wellFormed {s : Settings} (h : s.Coherent) {inputs : List Text} (some : inputs ≠ []) :
    (Batch.of s inputs).WellFormed s.pairDirs inputs := by
  constructor
  case some => exact some
  case outputs =>
    show (inputs.map fun input => (input, Output.primary s input)).map Prod.fst = inputs
    rw [List.map_map]
    exact List.map_id inputs
  case noObject => exact h.noObject
  case dependencyType => exact h.dependencyType
  case dependencies => exact h.dependencies
  case paired =>
    intro hwanted
    have hplan : (Batch.of s inputs).plan.dependencies =
        inputs.map fun input => Output.dependencyPair s input (Output.primary s input) := if_pos hwanted
    rw [hplan, List.forall₂_map_right_iff]
    exact List.forall₂_map_left_iff.2 (List.forall₂_same.2 fun input _ => pairFor_of s inputs input)
  case unpaired =>
    intro hunwanted
    exact if_neg (Bool.eq_false_iff.1 hunwanted)

/-! ## The settings of a command line without problems -/

theorem filled_coherent {defaults : Settings} (consistent : defaults.Consistent) {m : Matched} {items : List Item}
    (h : m.args.map Arg.unplaced = items.map Item.arg) (compatible : m.conflictReports (defaults.filled m) = []) :
    (defaults.filled m).Coherent := by
  obtain ⟨hobject, hdependency⟩ := filled_consistent consistent h
  refine ⟨hobject, hdependency, fun hwanted => ?_⟩
  have hallowed : (defaults.filled m).outputType.allowsDependencies = true := by
    unfold Matched.conflictReports at compatible
    simpa [hwanted] using compatible
  simpa [OutputType.allowsDependencies] using hallowed

/-- **A command line without problems has coherent settings**, if what it starts from asks for nothing but bitcode. -/
theorem resolve_coherent {defaults : Settings} (fresh : defaults.withDependencies = false)
    (usual : defaults.outputType = .bitcode) {argv : List Text} (h : (resolve defaults argv).reports = []) :
    (resolve defaults argv).settings.Coherent := by
  rcases resolve_cases defaults argv with ⟨-, hr⟩ | ⟨m, hm, hr⟩
  · rw [hr]
    constructor
    case noObject => rw [usual]; exact nofun
    case dependencyType => rw [usual]; exact nofun
    case dependencies => rw [fresh]; exact nofun
  · obtain ⟨items, last, hsaid⟩ := exists_said argv.tail
    obtain ⟨m', hm', -, hargs, -⟩ := read_of_said hsaid
    obtain rfl : m' = m := Except.ok.inj (hm'.symm.trans hm)
    rw [hr, ofMatched_reports] at h
    have hconflict := (List.append_eq_nil_iff.1 (List.append_eq_nil_iff.1 (List.append_eq_nil_iff.1 h).1).1).2
    have hconsistent : defaults.Consistent := ⟨usual ▸ OutputType.noConfusion, usual ▸ OutputType.noConfusion⟩
    obtain ⟨hobject, hdependency, hwanted⟩ := filled_coherent hconsistent hargs hconflict
    obtain ⟨n, hn⟩ := ofMatched_settings defaults m'
    rw [hr, hn]
    exact ⟨hobject, hdependency, hwanted⟩

/-- The inputs of a command line that gets as far as having some. -/
theorem resolve_inputs {defaults : Settings} {argv inputs : List Text}
    (h : (resolve defaults argv).inputs = .ok inputs) {items : List Item} {last : Option Text}
    (said : Said argv.tail items last) : inputs = items.filterMap Item.input? := by
  rcases resolve_cases defaults argv with ⟨ht, hr⟩ | ⟨m, hm, hr⟩
  · rw [ht] at said
    obtain ⟨rfl, rfl⟩ := said_nil said
    rw [hr] at h
    exact (Except.ok.inj h).symm
  · obtain ⟨m', hm', -, hargs, -⟩ := read_of_said said
    obtain rfl : m' = m := Except.ok.inj (hm'.symm.trans hm)
    rw [← inputs_items hargs]
    rw [hr] at h
    unfold Resolution.ofMatched at h
    cases hlevel : m'.lastInteger .targetApi <;> rw [hlevel] at h
    case tooLong => cases h
    all_goals exact (Except.ok.inj h).symm

/-! ## What a run hands over -/

variable {X C E : Type}

/-- A call is about nothing but a target and a batch. -/
def Call.IsFor (target : Target) (batch : Batch) : Call E → Prop
  | .setUp _ other _ => other = target
  | .compile _ other _ => other = batch
  | .make _ | .putAway _ _ => True

/-- **One compilation is about its own target and its own batch**, also if it fails. -/
theorem compileOnce_calls (kind : CompilerKind X C E) (target : Target) (batch : Batch) (w : World X) {call : Call E}
    (h : call ∈ (compileOnce kind.watched target batch (w.noted [])).2.outside.calls) : call.IsFor target batch := by
  rcases hmake : kind.make w with ⟨e | c, w₁⟩
  · rw [compileOnce_of_make_error (watched_make_error hmake)] at h
    obtain rfl : call = .make (some e) := List.mem_singleton.1 h
    trivial
  · rcases hset : kind.setUp c target w₁ with ⟨e | d, w₂⟩
    · rw [compileOnce_of_setUp_error (watched_make_ok hmake) (watched_setUp_error hset)] at h
      obtain rfl | rfl : call = .make none ∨ call = .setUp 0 target (some e) := by simpa [World.noted] using h
      · trivial
      · rfl
    · rcases hcompile : kind.compile d batch w₂ with ⟨result, w₃⟩
      rcases hput : kind.putAway d w₃ with ⟨fault, w₄⟩
      rw [compileOnce_of_compile (watched_make_ok hmake) (watched_setUp_ok hset) (watched_compile hcompile)
        (watched_putAway hput)] at h
      obtain rfl | rfl | rfl | rfl : call = .make none ∨ call = .setUp 0 target none ∨ call = .compile 0 batch result ∨
          call = .putAway 0 fault := by simpa [World.noted] using h
      · trivial
      · rfl
      · rfl
      · trivial

theorem Request.of_eq_compile {failed : Bool} {s : Settings} {inputs : List Text}
    (h : Request.of failed s inputs = .compile) : failed = false ∧ inputs ≠ [] := by
  unfold Request.of at h
  split at h
  · cases h
  · rename_i hfailed
    refine ⟨Bool.eq_false_iff.2 hfailed, ?_⟩
    rintro rfl
    split at h
    · cases h
    · split at h <;> cases h

/-- **A compiler is asked for only without errors and with inputs**, and for the target and the batch of these. -/
theorem serve_calls (kind : CompilerKind X C E) {s : Driver.Stage} {settings : Settings} {inputs : List Text}
    {w : World X} {call : Call E}
    (h : call ∈ (Driver.serve kind.watched s settings inputs (w.noted [])).world.outside.calls) :
    s.engine.failed = false ∧ inputs ≠ [] ∧ call.IsFor settings.target (.of settings inputs) := by
  unfold Driver.serve at h
  cases hrequest : Request.of s.engine.failed settings inputs with
  | nothing | help | version =>
    rw [hrequest] at h
    cases h
  | inputs =>
    rw [hrequest] at h
    rcases hadd : s.engine.add (.of .noInputFiles []) with ⟨engine, _ | e⟩ <;> simp only [hadd, printedBy_noted] at h <;>
      cases h
  | compile =>
    obtain ⟨hfailed, hsome⟩ := Request.of_eq_compile hrequest
    refine ⟨hfailed, hsome, compileOnce_calls kind settings.target (.of settings inputs) w ?_⟩
    rw [hrequest] at h
    rcases hcompile : compileOnce kind.watched settings.target (.of settings inputs) (w.noted []) with ⟨e | good, after⟩ <;>
      simp only [hcompile] at h <;> exact h

/-- A run that asks for a compiler has got through expansion, configuration and resolution. -/
theorem run_reaches {kind : Toolchain → CompilerKind X C E} {d : Driver} {argv : List Text} {w : World X} {call : Call E}
    (h : call ∈ (d.run (fun t => (kind t).watched) argv (w.noted [])).world.outside.calls) :
    ∃ t args x inputs, d.configured w.disk = .ok t ∧ Expander.expand {} (ofDisk w.disk) argv = (.ok args, x) ∧
      (resolve t.settings args).inputs = .ok inputs := by
  have hdisk : (w.noted ([] : List (Call E))).disk = w.disk := rfl
  unfold Driver.run at h
  rw [hdisk] at h
  rcases hexpand : Expander.expand {} (ofDisk w.disk) argv with ⟨e | args, x⟩
  · rw [hexpand] at h
    cases h
  rw [hexpand] at h
  dsimp only at h
  unfold Driver.runExpanded at h
  rw [hdisk] at h
  rcases hwarned : (d.engine (programName args) (w.noted ([] : List (Call E)))).addAll (x.skipped.map skippedWarning)
    with ⟨engine, _ | e⟩
  · cases hconfigured : d.configured w.disk with
    | error e =>
      simp only [hwarned, hconfigured, printedBy_noted] at h
      cases h
    | ok t =>
      cases hinputs : (resolve t.settings args).inputs with
      | ok inputs => exact ⟨t, args, x, inputs, rfl, rfl, hinputs⟩
      | error e =>
        simp only [hwarned, hconfigured, Driver.resolveAndServe, hinputs, printedBy_noted] at h
        rcases hreported : engine.addAll (resolve t.settings args).reports with ⟨engine', _ | e'⟩ <;>
          simp only [hreported] at h <;> cases h
  · simp only [hwarned, printedBy_noted] at h
    cases h

/-- A run makes its calls in doing what its command line asks for. -/
theorem run_served {kind : Toolchain → CompilerKind X C E} {d : Driver} {argv : List Text} {w : World X} {call : Call E}
    (h : call ∈ (d.run (fun t => (kind t).watched) argv (w.noted [])).world.outside.calls) :
    ∃ (t : Toolchain) (args : List Text) (x : Expander) (inputs : List Text) (s : Driver.Stage) (w' : World X),
      d.configured w.disk = .ok t ∧ Expander.expand {} (ofDisk w.disk) argv = (.ok args, x) ∧
      (resolve t.settings args).inputs = .ok inputs ∧
      s.engine.reported = x.skipped.map skippedWarning ++ (resolve t.settings args).reports ∧
      d.run (fun t => (kind t).watched) argv (w.noted []) =
        Driver.serve (kind t).watched s (resolve t.settings args).settings inputs (w'.noted []) := by
  obtain ⟨t, args, x, inputs, hconfigured, hexpanded, hresolved⟩ := run_reaches h
  obtain ⟨engine, w', hreported, -, -, houtside, hrun⟩ :=
    run_eq_serve (fun t => (kind t).watched) (w := w.noted []) hconfigured hexpanded hresolved
  have hnoted : w' = w'.plain.noted [] := by
    have hcalls : w'.outside.calls = [] := congrArg Watched.calls houtside
    rw [← hcalls]
    rfl
  rw [hnoted] at hrun
  exact ⟨t, args, x, inputs, _, w'.plain, hconfigured, hexpanded, hresolved, hreported, hrun⟩

/-- **Whatever a run asks of a compiler** is about the target of the toolchain and the batch for its command line, which
has no problems. -/
theorem run_calls {kind : Toolchain → CompilerKind X C E} {d : Driver} {argv : List Text} {w : World X} {call : Call E}
    (h : call ∈ (d.run (fun t => (kind t).watched) argv (w.noted [])).world.outside.calls) :
    ∃ (t : Toolchain) (args : List Text) (x : Expander) (inputs : List Text), d.configured w.disk = .ok t ∧
      Expander.expand {} (ofDisk w.disk) argv = (.ok args, x) ∧ (resolve t.settings args).reports = [] ∧
      (resolve t.settings args).inputs = .ok inputs ∧ inputs ≠ [] ∧
      call.IsFor t.target (.of (resolve t.settings args).settings inputs) := by
  obtain ⟨t, args, x, inputs, s, w', hconfigured, hexpanded, hresolved, hreported, hrun⟩ := run_served h
  rw [hrun] at h
  obtain ⟨hfailed, hsome, hcall⟩ := serve_calls (kind t) h
  rw [resolve_target] at hcall
  refine ⟨t, args, x, inputs, hconfigured, hexpanded, ?_, hresolved, hsome, hcall⟩
  rw [List.eq_nil_iff_forall_not_mem]
  intro p hp
  have hfails : Fails t.settings args := ⟨p, hp, (resolve_ofCommandLine _ _ p hp).fails⟩
  rw [(failed_iff_fails hreported).2 hfails] at hfailed
  cases hfailed

/-- **A batch that a run hands over** is that for the settings and inputs of its command line, which has no problems. -/
theorem run_batch {kind : Toolchain → CompilerKind X C E} {d : Driver} {argv : List Text} {w : World X} {n : Nat}
    {batch : Batch} {r : Except E Bool}
    (h : .compile n batch r ∈ (d.run (fun t => (kind t).watched) argv (w.noted [])).world.outside.calls) :
    ∃ (t : Toolchain) (args : List Text) (x : Expander) (inputs : List Text),
      Expander.expand {} (ofDisk w.disk) argv = (.ok args, x) ∧ (resolve t.settings args).reports = [] ∧
      (resolve t.settings args).inputs = .ok inputs ∧ inputs ≠ [] ∧ batch = .of (resolve t.settings args).settings inputs := by
  obtain ⟨t, args, x, inputs, -, hexpanded, hclean, hresolved, hsome, hbatch⟩ := run_calls h
  exact ⟨t, args, x, inputs, hexpanded, hclean, hresolved, hsome, hbatch⟩

/-! ## What is left of a toolchain -/

theorem spells_level : Spells levelNames .targetApi := by unfold Spells; decide

/-- **A command line without a level keeps the one that it starts from.** -/
theorem resolve_unleveled (s : Settings) {args : List Text} (unsaid : ¬ AsksFor levelNames args) :
    (resolve s args).settings.targetApi = s.targetApi := by
  rcases resolve_cases s args with ⟨-, hr⟩ | ⟨m, hm, hr⟩
  · rw [hr]
  · have hnone : m.filtered [.targetApi] = [] := by
      rw [Matched.filtered, List.filter_eq_nil_iff]
      exact fun a ha hamong => unsaid ((has_iff spells_level hm).1 (List.any_eq_true.2 ⟨a, ha, hamong⟩))
    have habsent : m.lastInteger .targetApi = .absent := by
      rw [Matched.lastInteger, Matched.last?, hnone]
      rfl
    rw [hr, Resolution.ofMatched, habsent]
    exact s.filled_targetApi m

/-- A call that says of the target and the level what a toolchain says of them; a command line may say another level. -/
def Call.Carries (t : Toolchain) (args : List Text) : Call E → Prop
  | .setUp _ target _ => target = t.target
  | .compile _ batch _ => ¬ AsksFor levelNames args → batch.targetApi = t.targetApi
  | .make _ | .putAway _ _ => True

/-- **A command line by which inputs are compiled.** -/
structure Compiles (s : Settings) (args inputs : List Text) : Prop where
  resolved : (resolve s args).inputs = .ok inputs
  accepted : ¬ Fails s args
  noHelp : ¬ AsksFor helpSpellings args
  noVersion : ¬ AsksFor versionSpellings args
  some : inputs ≠ []

/-- **A toolchain that every run passes on** to its compiler, of whatever kind: no call says anything else, and a command
line by which inputs are compiled comes to the calls for them. -/
structure Toolchain.PassedOn (t : Toolchain) : Prop where
  carried : ∀ {X C E : Type} (kind : Toolchain → CompilerKind X C E) {d : Driver} {argv : List Text} {w : World X},
    d.configured w.disk = .ok t →
      ∀ call ∈ (d.run (fun t => (kind t).watched) argv (w.noted [])).world.outside.calls,
        ∃ args x, Expander.expand {} (ofDisk w.disk) argv = (.ok args, x) ∧ call.Carries t args
  reached : ∀ {X C E : Type} (kind : Toolchain → CompilerKind X C E), (kind t).Reliable →
    ∀ {d : Driver} {argv args inputs : List Text} {w : World X} {x : Expander}, d.configured w.disk = .ok t →
      Expander.expand {} (ofDisk w.disk) argv = (.ok args, x) → Compiles t.settings args inputs →
        ∃ result, (d.run (fun t => (kind t).watched) argv (w.noted [])).world.outside.calls =
          batchCalls 0 t.target (.of (resolve t.settings args).settings inputs) result

/-- **No run loses anything of a toolchain** but the level, where the command line says another one. -/
theorem passedOn (t : Toolchain) : t.PassedOn := by
  constructor
  case carried =>
    intro X C E kind d argv w configured call hcall
    obtain ⟨t', args, x, inputs, hconfigured, hexpanded, -, -, -, hfor⟩ := run_calls hcall
    obtain rfl : t = t' := Except.ok.inj (configured.symm.trans hconfigured)
    refine ⟨args, x, hexpanded, ?_⟩
    cases call with
    | make | putAway => trivial
    | setUp number target fault => exact hfor
    | compile number batch result =>
      intro unsaid
      obtain rfl : batch = .of (resolve t.settings args).settings inputs := hfor
      exact resolve_unleveled t.settings unsaid
  case reached =>
    intro X C E kind reliable d argv args inputs w x configured expanded compiles
    obtain ⟨engine, w', hreported, -, -, houtside, hrun⟩ :=
      run_eq_serve (fun t => (kind t).watched) (w := w.noted []) configured expanded compiles.resolved
    have hfailed : engine.failed = false := Bool.eq_false_iff.2 (mt (failed_iff_fails hreported).1 compiles.accepted)
    have hhelp := Bool.eq_false_iff.2 (mt (resolve_showHelp t.settings args rfl).1 compiles.noHelp)
    have hversion := Bool.eq_false_iff.2 (mt (resolve_showVersion t.settings args rfl).1 compiles.noVersion)
    obtain ⟨result, after, hcompile⟩ := compileOnce_watched reliable t.settings.target
      (.of (resolve t.settings args).settings inputs) w'.plain w'.outside.calls
    have hcalls : w'.outside.calls = [] := congrArg Watched.calls houtside
    refine ⟨result, ?_⟩
    rw [hrun, serve_compile hfailed hhelp hversion compiles.some, resolve_target,
      show w' = w'.plain.noted w'.outside.calls from rfl, hcompile, hcalls]
    rfl

/-! ## What the backend makes of a batch -/

namespace Backend

theorem turns_paired {c : Compiler} {b : Batch} {R : Text × Text → Text × Text → Prop} :
    ∀ {outputs dependencies : List (Text × Text)}, List.Forall₂ R outputs dependencies → ∀ w : World Session,
      ∀ t ∈ turns c b outputs dependencies w, ∃ pair, t.dependency = some pair ∧ R t.pair pair
  | _, _, .nil, _, _, ht => by cases ht
  | _, _, .cons h hs, w, t, ht => by
    rcases List.mem_cons.1 ht with rfl | ht
    · exact ⟨_, rfl, h⟩
    · exact turns_paired hs _ t ht

/-- **A script that meets its own dependency pair**; if only that is wanted of it, its dependency file is written or it
is reported that it could not be. -/
structure Turn.Paired (c : Compiler) (b : Batch) (dirs : Text × Text) (t : Turn) : Prop where
  pair : b.withDependencies = true → ∃ pair, t.dependency = some pair ∧ b.PairFor dirs t.pair pair
  writes : b.outputType = .dependency → ∃ pair, t.dependency = some pair ∧
    t.play c b = noteDependency t.pair.1 b.dependencyTargets pair t.world

theorem turn_of_wellFormed {b : Batch} {dirs : Text × Text} {inputs : List Text} (h : b.WellFormed dirs inputs)
    (c : Compiler) (w : World Session) {t : Turn} (ht : t ∈ Turn.all c b w) : t.Paired c b dirs := by
  have hpaired : b.withDependencies = true → ∃ pair, t.dependency = some pair ∧ b.PairFor dirs t.pair pair :=
    fun hwanted => turns_paired (h.paired hwanted) w t ht
  constructor
  case pair => exact hpaired
  case writes =>
    intro htype
    have hwanted := h.dependencyType htype
    obtain ⟨pair, hpair, -⟩ := hpaired hwanted
    exact ⟨pair, hpair, (Turn.play_of_dependency c htype).trans (Turn.conclude_of_wanted _ hwanted hpair)⟩

end Backend

/-- **What can be relied on** of a batch that is handed over for an expanded command line, whatever compiles it. -/
structure Batch.HandedOver (b : Batch) (args : List Text) (dirs : Text × Text) : Prop where
  said : ∃ items last, Said args.tail items last
  wellFormed : ∀ items last, Said args.tail items last → b.WellFormed dirs (items.filterMap Item.input?)
  everyScript : ∀ c w, (Backend.Turn.all c b w).map (·.pair) = b.plan.outputs
  paired : ∀ c w, ∀ t ∈ Backend.Turn.all c b w, t.Paired c b dirs

/-- **Every batch that a run hands over is well-formed**, whatever the command line, the configuration and the kind of
compiler.  Its inputs are those of the expanded command line, in order.  So the backend never looks up the pair of
another input and never finds none; and when only dependency files are wanted, it does not do nothing. -/
theorem run_batch_wellFormed {kind : Toolchain → CompilerKind X C E} {d : Driver} {argv : List Text} {w : World X}
    {n : Nat} {batch : Batch} {r : Except E Bool}
    (h : .compile n batch r ∈ (d.run (fun t => (kind t).watched) argv (w.noted [])).world.outside.calls) :
    ∃ args x dirs, Expander.expand {} (ofDisk w.disk) argv = (.ok args, x) ∧ batch.HandedOver args dirs := by
  obtain ⟨t, args, x, inputs, hexpanded, hclean, hresolved, hsome, rfl⟩ := run_batch h
  have hcoherent : (resolve t.settings args).settings.Coherent := resolve_coherent rfl rfl hclean
  have hwell := batch_wellFormed hcoherent hsome
  refine ⟨args, x, (resolve t.settings args).settings.pairDirs, hexpanded, ?_⟩
  constructor
  case said => exact exists_said _
  case wellFormed =>
    intro items last said
    rw [← resolve_inputs hresolved said]
    exact hwell
  case everyScript => exact fun c w => Backend.turns_pair c _ _ _ w
  case paired => exact fun c w t ht => Backend.turn_of_wellFormed hwell c w ht

/-- A command line with two scripts and dependency files in a directory of their own. -/
def pairedLine : List Text := ["rscc", "-MD", "a.rs", "-d", "deps", "b.rs"]

def pairedBatch : Batch := .of { withDependencies := true, dependencyDir := "deps" } ["a.rs", "b.rs"]

def pairedItems : List Item :=
  [.flag "-MD" (.tail _ (.head _)), .input "a.rs" rfl, .valued "-d" (List.mem_of_elem_eq_true rfl) "deps",
    .input "b.rs" rfl]

theorem pairedLine_resolved :
    (resolve {} pairedLine).settings = { withDependencies := true, dependencyDir := "deps" } ∧
      (resolve {} pairedLine).inputs = .ok ["a.rs", "b.rs"] ∧ (resolve {} pairedLine).reports = [] := by
  obtain ⟨hsettings, hinputs, hreports⟩ :=
    resolve_of_said {} pairedLine pairedItems (List.cons_ne_nil _ _) ⟨nofun, rfl⟩
  exact ⟨hsettings.trans (by rfl), hinputs.trans (by rfl), List.map_eq_nil_iff.1 (hreports.trans (by rfl))⟩

theorem pairedLine_handsOver :
    .compile 0 pairedBatch (.ok true) ∈ (({ toolchain := some {} } : Driver).run (fun _ => contentKind.watched) pairedLine
      (blankWorld.noted [])).world.outside.calls := by
  obtain ⟨hsettings, hinputs, hreports⟩ := pairedLine_resolved
  have expanded : Expander.expand {} (ofDisk blankWorld.disk) pairedLine = (.ok pairedLine, {}) := by rfl
  obtain ⟨engine, w, hreported, -, -, houtside, hrun⟩ := run_eq_serve (fun _ => contentKind.watched)
    (d := { toolchain := some {} }) (w := blankWorld.noted []) (t := {}) rfl expanded hinputs
  have hfails : ¬ Fails (Toolchain.settings {}) pairedLine := by
    rintro ⟨p, hp, -⟩
    rw [show (resolve (Toolchain.settings {}) pairedLine).reports = [] from hreports] at hp
    cases hp
  rw [hrun, show (resolve (Toolchain.settings {}) pairedLine).settings = _ from hsettings,
    serve_compile (Bool.eq_false_iff.2 (mt (failed_iff_fails hreported).1 hfails)) rfl rfl (List.cons_ne_nil _ _)]
  have hcalls : w.outside.calls = [] := congrArg Watched.calls houtside
  obtain ⟨disk, out, err, outside, calls⟩ := w
  cases hcalls
  exact .tail _ (.tail _ (.head _))

theorem run_batch_wellFormed_paired :
    .compile 0 pairedBatch (.ok true) ∈ (({ toolchain := some {} } : Driver).run (fun _ => contentKind.watched) pairedLine
      (blankWorld.noted [])).world.outside.calls ∧
    ∃ args x dirs, Expander.expand {} (ofDisk blankWorld.disk) pairedLine = (.ok args, x) ∧
      pairedBatch.HandedOver args dirs :=
  ⟨pairedLine_handsOver, run_batch_wellFormed pairedLine_handsOver⟩

end ScriptDriver
