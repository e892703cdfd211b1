import ScriptDriver.Proofs.Backend.Runs
import ScriptDriver.Proofs.Driver.Course
import ScriptDriver.Proofs.Settings.OpenLine
import ScriptDriver.Proofs.Settings.Respelling
import ScriptDriver.Proofs.Settings.Totality
/-!
# Level — from the command line to the backend

The level of a command line is the integer that its last word on it denotes, and every command of the run says it in
canonical form.  So the spelling of an integer makes no difference to what is run, and different integers never run the
same command.  A word that denotes no integer is reported, and nothing is run (`level_endToEnd`).
-/
namespace ScriptDriver

open CommandLine
open Decimal (Denotes Canonical digitLimit isDigit)
open ResponseFile (Expander ofDisk)

/-! ## Command lines with a level -/

def levelName : Text := "-target-api"

def levelItem (v : Text) : Item := .valued levelName (by decide) v

theorem levelItem_isAbout (v : Text) : (levelItem v).isAbout .level = true := rfl

theorem eq_levelItem {item : Item} (h : item.isNamed levelNames = true) : item = levelItem item.value := by
  have hname : item.name? = some levelName := by
    obtain ⟨name, hname, hlevel⟩ := (Option.any_eq_true _ _).1 h
    obtain rfl := List.mem_singleton.1 (List.contains_iff_mem.1 hlevel)
    exact hname
  cases item with
  | input | unknown => cases hname
  | flag name listed =>
    obtain rfl : name = levelName := Option.some.inj hname
    exact absurd listed (by decide)
  | valued name listed value =>
    obtain rfl : name = levelName := Option.some.inj hname
    rfl
  | includeDir => exact absurd (Option.some.inj hname) (by decide)
  | storage => exact absurd (Option.some.inj hname) (by decide)

/-- **Every command line with a level is one with a place for it.** -/
theorem exists_levelLine {argv : List Text} {items : List Item} {item : Item} (hsaid : Said argv.tail items none)
    (hlast : lastNamed levelNames items = some item) :
    ∃ line : OpenLine .level, argv = line.argv (levelItem item.value) := by
  have hnamed : item.isNamed levelNames = true := (List.mem_filter.1 (List.mem_of_getLast? hlast)).2
  unfold lastNamed at hlast
  rw [← funext isAbout_level] at hlast
  obtain ⟨line, -, rfl⟩ := OpenLine.exists_of_last hsaid hlast
  exact ⟨line, by rw [← eq_levelItem hnamed]⟩

def levelProblem (v : Text) : Diagnostic := .of .invalidInteger [.text (levelName ++ " " ++ v), .text v]

/-- **A command line that is accepted**, whatever it says about the level. -/
def OpenLine.OtherwiseAccepted (line : OpenLine .level) (s : Settings) : Prop :=
  ∃ v, (resolve s (line.argv (levelItem v))).reports = []

/-! ## What the level decides -/

/-- The problems of a finished command line but for the one with its level. -/
def problemsButLevel (conflict : List Diagnostic) (items : List Item) : List Diagnostic :=
  ((items.filterMap Item.unknown?).map fun token => .of .unknownArgument [.text token]) ++ conflict ++
    (badPlace? items).toList.map fun place => .of .invalidValue [.text "-bitcode-storage", .text place]

theorem problemsAround_level (line : OpenLine .level) (conflict : List Diagnostic) (v : Text) :
    problemsAround conflict (line.items (levelItem v)) none =
      problemsButLevel conflict (line.before ++ line.later) ++ if Decimal.isInteger v then [] else [levelProblem v] := by
  have hlevel := levelItem_isAbout v
  unfold problemsAround problemsButLevel badPlace? lastValueNamed badLevel?
  rw [line.unknowns_items rfl, line.lastNamed_items hlevel isAbout_place nofun,
    line.lastNamed_last hlevel isAbout_level, Option.filter_some]
  refine congrArg (List.append _) ?_
  have hvalue : (levelItem v).value = v := rfl
  rw [hvalue]
  cases Decimal.isInteger v <;> rfl

/-- **The last word about the level decides it**, unless it has too many digits. -/
theorem Resolution.Level.of_last {r : Resolution} {s : Settings} {items : List Item} {item : Item}
    (h : r.Level s items) (hlast : lastNamed levelNames items = some item)
    (few : Decimal.isInteger item.value = true → (Decimal.split item.value).2.length ≤ digitLimit) :
    r.inputs = .ok (items.filterMap Item.input?) ∧ r.settings.targetApi =
      if Decimal.isInteger item.value then Decimal.denoted item.value else s.targetApi := by
  cases h with
  | unsaid hnone =>
    rw [hlast] at hnone
    cases hnone
  | refused hsome hinteger hkept hreturned =>
    obtain rfl := Option.some.inj (hsome.symm.trans hlast)
    rw [if_neg (Bool.eq_false_iff.1 hinteger)]
    exact ⟨hreturned, hkept⟩
  | taken hsome hinteger hshort hset hreturned =>
    obtain rfl := Option.some.inj (hsome.symm.trans hlast)
    rw [if_pos hinteger]
    exact ⟨hreturned, hset⟩
  | givenUp hsome hinteger hlong =>
    obtain rfl := Option.some.inj (hsome.symm.trans hlast)
    exact absurd (few hinteger) (Nat.not_le.2 hlong)

theorem conflictReports_alikeApart {m m' : Matched} (h : AlikeApart [.level] m m') (s : Settings) :
    m'.conflictReports (s.filled m') = m.conflictReports (s.filled m) := by
  have hmode := lastText_alikeApart h (t := .mode) (by decide)
  have htype := lastText_alikeApart h (t := .outputType) (by decide)
  rw [filled_sameMode h, conflictReports_eq, conflictReports_eq]
  dsimp only [Topic.id] at hmode htype
  rw [hmode, htype]

/-- **Only the level and the report of it depend on the word in its place.** -/
theorem resolve_levelLine (line : OpenLine .level) (s : Settings) :
    ∃ (base : Settings) (inputs : List Text) (rest : List Diagnostic), ∀ v,
    (resolve s (line.argv (levelItem v))).reports = rest ++ (if Decimal.isInteger v then [] else [levelProblem v]) ∧
    ((Decimal.isInteger v = true → (Decimal.split v).2.length ≤ digitLimit) →
      (resolve s (line.argv (levelItem v))).inputs = .ok inputs ∧
      (resolve s (line.argv (levelItem v))).settings =
        { base with targetApi := if Decimal.isInteger v then Decimal.denoted v else s.targetApi }) := by
  obtain ⟨m₀, hargs₀, -, -⟩ := line.exists_reading (levelItem []) s
  refine ⟨s.filled m₀, (line.before ++ line.later).filterMap Item.input?,
    problemsButLevel (m₀.conflictReports (s.filled m₀)) (line.before ++ line.later), fun v => ?_⟩
  obtain ⟨m, hargs, hresolve, hreports⟩ := line.exists_reading (levelItem v) s
  have halike : AlikeApart [.level] m₀ m := OpenLine.alikeApart rfl rfl hargs₀ hargs
  rw [conflictReports_alikeApart halike, problemsAround_level] at hreports
  refine ⟨hreports, fun few => ?_⟩
  have hlast : lastNamed levelNames (line.items (levelItem v)) = some (levelItem v) :=
    line.lastNamed_last (levelItem_isAbout v) isAbout_level
  obtain ⟨hinputs, hlevel⟩ := (ofMatched_level s hargs).of_last hlast few
  have hothers : (line.items (levelItem v)).filterMap Item.input? = (line.before ++ line.later).filterMap Item.input? := by
    rw [OpenLine.items, List.filterMap_append, List.filterMap_append]
    rfl
  -- but for its level a resolution has the settings that are filled in before it
  obtain ⟨n, hn⟩ := ofMatched_settings s m
  rw [hn] at hlevel
  rw [hresolve, hinputs, hothers, hn, filled_sameMode halike]
  exact ⟨rfl, by rw [show n = _ from hlevel]; rfl⟩

/-! ## Runs of the backend -/

/-- **A driver reads a command line** as `args`, with the toolchain `t`. -/
structure Driver.Reads (d : Driver) (w : World Backend.Session) (argv : List Text) (t : Toolchain) (args : List Text) :
    Prop where
  configured : d.configured w.disk = .ok t
  expanded : ∃ x, Expander.expand {} (ofDisk w.disk) argv = (.ok args, x)

/-- The runs of the backend that a run of the driver makes. -/
def Driver.newRuns (d : Driver) (argv : List Text) (w : World Backend.Session) : List Backend.Run :=
  (d.run Backend.kind argv w).world.outside.runs.drop w.outside.runs.length

def Toolchain.compiler (t : Toolchain) : Backend.Compiler := Backend.Compiler.setUp { toolchain := t } t.target

theorem compileOnce_backend (t : Toolchain) (b : Batch) (w : World Backend.Session) :
    compileOnce (Backend.kind t) t.target b w = Backend.compile t.compiler b w := by
  have hmake : (Backend.kind t).make w = (.ok { toolchain := t }, w) := rfl
  rcases hcompile : Backend.compile t.compiler b w with ⟨result, after⟩
  exact compileOnce_of_compile hmake rfl hcompile rfl

theorem serve_outside {X C E : Type} (kind : CompilerKind X C E) (s : Driver.Stage) (settings : Settings)
    (inputs : List Text) (w : World X) : (Driver.serve kind s settings inputs w).world.outside =
      match Request.of s.engine.failed settings inputs with
      | .compile => (compileOnce kind settings.target (.of settings inputs) w).2.outside
      | _ => w.outside := by
  unfold Driver.serve
  cases Request.of s.engine.failed settings inputs with
  | nothing | help | version => rfl
  | inputs =>
    dsimp only
    rcases s.engine.add (.of .noInputFiles []) with ⟨engine, _ | e⟩ <;> exact (w.printedBy_frame engine).2.2
  | compile =>
    dsimp only
    rcases compileOnce kind settings.target (.of settings inputs) w with ⟨e | good, after⟩ <;> rfl

section
variable {d : Driver} {w : World Backend.Session} {argv args : List Text} {t : Toolchain} (reads : d.Reads w argv t args)
include reads

/-- **What an accepted command line does to the backend**, whatever its inputs and settings. -/
theorem run_outside {inputs : List Text} (accepted : (resolve t.settings args).reports = [])
    (resolved : (resolve t.settings args).inputs = .ok inputs) :
    (d.run Backend.kind argv w).world.outside =
      match Request.of false (resolve t.settings args).settings inputs with
      | .compile => (Backend.compile t.compiler (.of (resolve t.settings args).settings inputs) w).2.outside
      | _ => w.outside := by
  obtain ⟨x, expanded⟩ := reads.expanded
  obtain ⟨engine, w', hreported, hdisk, -, houtside, hrun⟩ :=
    run_eq_serve Backend.kind reads.configured expanded resolved
  have hfails : ¬ Fails t.settings args := by
    rintro ⟨p, hp, -⟩
    rw [accepted] at hp
    cases hp
  rw [hrun, serve_outside, Bool.eq_false_iff.2 (mt (failed_iff_fails hreported).1 hfails), resolve_target]
  cases Request.of false (resolve t.settings args).settings inputs with
  | compile =>
    have halike : w'.Alike w := ⟨hdisk, houtside⟩
    obtain ⟨result, after, after', hcompile, hcompile', hafter⟩ :=
      Backend.compile_alike t.compiler (.of (resolve t.settings args).settings inputs) halike
    have hserved := compileOnce_backend t (.of (resolve t.settings args).settings inputs) w'
    dsimp only
    rw [show t.settings.target = t.target from rfl, hserved, hcompile, hcompile']
    exact hafter.outside
  | _ => exact houtside

/-- **The runs of an accepted command line** say its level after the same opening. -/
theorem run_commands {inputs : List Text} (accepted : (resolve t.settings args).reports = [])
    (resolved : (resolve t.settings args).inputs = .ok inputs) :
    (d.run Backend.kind argv w).world.outside.runs = w.outside.runs ++ d.newRuns argv w ∧
      ∀ r ∈ d.newRuns argv w, ∃ s : Backend.Script, s.targetApi = (resolve t.settings args).settings.targetApi ∧
        t.compiler.command w.disk.workingDirectory s = .ok r.command := by
  have houtside := run_outside reads accepted resolved
  have hruns : ∃ runs, (d.run Backend.kind argv w).world.outside.runs = w.outside.runs ++ runs ∧
      ∀ r ∈ runs, ∃ s : Backend.Script, s.targetApi = (resolve t.settings args).settings.targetApi ∧
        t.compiler.command w.disk.workingDirectory s = .ok r.command := by
    rw [houtside]
    cases Request.of false (resolve t.settings args).settings inputs with
    | compile =>
      obtain ⟨runs, hruns, hcommands⟩ := Backend.compile_runs t.compiler
        (.of (resolve t.settings args).settings inputs) w
      refine ⟨runs, hruns, fun r hr => ?_⟩
      obtain ⟨pair, -, hcommand⟩ := hcommands r hr
      exact ⟨_, rfl, hcommand⟩
    | _ => exact ⟨[], (List.append_nil _).symm, nofun⟩
  obtain ⟨runs, hruns, hcommands⟩ := hruns
  have hnew : d.newRuns argv w = runs := by
    unfold Driver.newRuns
    rw [hruns, List.drop_left]
  rw [hnew]
  exact ⟨hruns, hcommands⟩

/-- **A command line with an error** ends with status 1, all that it is refused for is reported, and nothing is run. -/
theorem run_refused {inputs : List Text} (refused : Fails t.settings args)
    (resolved : (resolve t.settings args).inputs = .ok inputs) :
    (d.run Backend.kind argv w).result = .ok 1 ∧ (d.run Backend.kind argv w).world.outside = w.outside ∧
      ∃ engine, (d.run Backend.kind argv w).reported = some (programName args, engine) ∧
        engine.reported.filter (·.severity.fails) = (resolve t.settings args).reports := by
  obtain ⟨x, expanded⟩ := reads.expanded
  obtain ⟨engine, w', hreported, -, -, houtside, hrun⟩ := run_eq_serve Backend.kind reads.configured expanded resolved
  rw [hrun, serve_failed ((failed_iff_fails hreported).2 refused)]
  refine ⟨rfl, houtside, engine, rfl, ?_⟩
  have hwarnings : (x.skipped.map skippedWarning).filter (·.severity.fails) = [] := by
    rw [List.filter_eq_nil_iff]
    intro p hp
    obtain ⟨name, -, rfl⟩ := List.mem_map.1 hp
    exact Bool.false_ne_true
  rw [hreported, List.filter_append, hwarnings, List.nil_append, List.filter_eq_self]
  exact fun p hp => (resolve_ofCommandLine t.settings args p hp).fails

end

/-! ## End to end -/

/-- **A level that is taken**: the command line is accepted, and every command of a run says the integer `n` in canonical
form. -/
structure LevelTaken (t : Toolchain) (args : List Text) (n : Int) : Prop where
  accepted : (resolve t.settings args).reports = []
  level : (resolve t.settings args).settings.targetApi = n
  inputs : ∃ inputs, (resolve t.settings args).inputs = .ok inputs
  commands : ∀ {d : Driver} {w : World Backend.Session} {argv : List Text}, d.Reads w argv t args →
    (d.run Backend.kind argv w).world.outside.runs = w.outside.runs ++ d.newRuns argv w ∧
      ∀ r ∈ d.newRuns argv w, ∃ text, Canonical text n ∧ Backend.levelArg text ∈ r.command

/-- **A level that is refused**: it is the one thing that is wrong with the command line, the usual level stays, and a run
reports just that and runs nothing. -/
structure LevelRefused (t : Toolchain) (args : List Text) (v : Text) : Prop where
  reported : (resolve t.settings args).reports = [levelProblem v]
  kept : (resolve t.settings args).settings.targetApi = t.targetApi
  ends : ∀ {d : Driver} {w : World Backend.Session} {argv : List Text}, d.Reads w argv t args →
    (d.run Backend.kind argv w).result = .ok 1 ∧ d.newRuns argv w = [] ∧
      ∃ engine, (d.run Backend.kind argv w).reported = some (programName args, engine) ∧
        engine.reported.filter (·.severity.fails) = [levelProblem v]

/-- **The level shows in every command, and its spelling in none**: from the same world, the same integer gives the same
runs, and different integers have no command in common. -/
structure LevelTold (t : Toolchain) (args args' : List Text) (n n' : Int) : Prop where
  same : ∀ {d : Driver} {w : World Backend.Session} {argv argv' : List Text}, d.Reads w argv t args →
    d.Reads w argv' t args' → n = n' → d.newRuns argv w = d.newRuns argv' w
  different : ∀ {d : Driver} {w : World Backend.Session} {argv argv' : List Text}, d.Reads w argv t args →
    d.Reads w argv' t args' → n ≠ n' → ∀ r ∈ d.newRuns argv w, ∀ r' ∈ d.newRuns argv' w, r.command ≠ r'.command

theorem levelTaken_of_resolved {t : Toolchain} {args inputs : List Text} {n : Int}
    (accepted : (resolve t.settings args).reports = []) (level : (resolve t.settings args).settings.targetApi = n)
    (resolved : (resolve t.settings args).inputs = .ok inputs) : LevelTaken t args n := by
  constructor
  case accepted => exact accepted
  case level => exact level
  case inputs => exact ⟨inputs, resolved⟩
  case commands =>
    intro d w argv reads
    obtain ⟨hruns, hcommands⟩ := run_commands reads accepted resolved
    refine ⟨hruns, fun r hr => ?_⟩
    obtain ⟨s, hlevel, hcommand⟩ := hcommands r hr
    obtain ⟨rest, hr⟩ := Backend.command_level hcommand
    refine ⟨Text.ofInt s.targetApi, Decimal.canonical_iff.2 (by rw [hlevel, level]), ?_⟩
    rw [hr]
    exact List.mem_append_right _ List.mem_cons_self

theorem levelRefused_of_resolved {t : Toolchain} {args inputs : List Text} {v : Text}
    (reported : (resolve t.settings args).reports = [levelProblem v])
    (kept : (resolve t.settings args).settings.targetApi = t.targetApi)
    (resolved : (resolve t.settings args).inputs = .ok inputs) : LevelRefused t args v := by
  refine ⟨reported, kept, fun {d w argv} reads => ?_⟩
  have refused : Fails t.settings args := ⟨levelProblem v, by rw [reported]; exact List.mem_cons_self, rfl⟩
  obtain ⟨hresult, houtside, engine, hengine, herrors⟩ := run_refused reads refused resolved
  refine ⟨hresult, ?_, engine, hengine, herrors.trans reported⟩
  unfold Driver.newRuns
  rw [houtside, List.drop_length]

theorem levelTold_of_taken {t : Toolchain} {args args' : List Text} {n n' : Int} (h : LevelTaken t args n)
    (h' : LevelTaken t args' n') (hinputs : (resolve t.settings args').inputs = (resolve t.settings args).inputs)
    (hsettings : n = n' → (resolve t.settings args').settings = (resolve t.settings args).settings) :
    LevelTold t args args' n n' := by
  obtain ⟨inputs, resolved⟩ := h.inputs
  constructor
  case same =>
    intro d w argv argv' reads reads' heq
    unfold Driver.newRuns
    rw [run_outside reads h.accepted resolved, run_outside reads' h'.accepted (hinputs.trans resolved), hsettings heq]
  case different =>
    intro d w argv argv' reads reads' hne r hr r' hr' hsame
    obtain ⟨s, hs, hcommand⟩ := (run_commands reads h.accepted resolved).2 r hr
    obtain ⟨s', hs', hcommand'⟩ := (run_commands reads' h'.accepted (hinputs.trans resolved)).2 r' hr'
    refine hne ?_
    rw [← h.level, ← h'.level, ← hs, ← hs']
    exact Backend.command_inj hcommand (hsame ▸ hcommand')

/-- **The level of a command line, end to end.**  Whatever the configured level is, and whatever else is on the command
line: what denotes an integer of few enough digits is taken as that integer; anything else that does not denote one is
refused; only the integer matters for what is run; and every integer of few enough digits has a canonical text, which is
taken as that integer. -/
theorem level_endToEnd (t : Toolchain) :
    (∀ argv items item, Said argv.tail items none → lastNamed levelNames items = some item →
      ∃ line : OpenLine .level, argv = line.argv (levelItem item.value)) ∧
    ∀ line : OpenLine .level, line.OtherwiseAccepted t.settings →
      (∀ v n, Denotes v n → v.countP isDigit ≤ digitLimit → LevelTaken t (line.argv (levelItem v)) n) ∧
      (∀ v, (∀ n, ¬ Denotes v n) → LevelRefused t (line.argv (levelItem v)) v) ∧
      (∀ v v' n n', Denotes v n → Denotes v' n' → v.countP isDigit ≤ digitLimit → v'.countP isDigit ≤ digitLimit →
        LevelTold t (line.argv (levelItem v)) (line.argv (levelItem v')) n n') ∧
      ∀ n : Int, n.natAbs < 10 ^ digitLimit → ∃ text, Canonical text n ∧ text.countP isDigit ≤ digitLimit ∧
        LevelTaken t (line.argv (levelItem text)) n := by
  refine ⟨fun _ _ _ hsaid hlast => exists_levelLine hsaid hlast, fun line otherwise => ?_⟩
  obtain ⟨base, inputs, rest, hresolve⟩ := resolve_levelLine line t.settings
  obtain rfl : rest = [] := by
    obtain ⟨v, hv⟩ := otherwise
    exact (List.append_eq_nil_iff.1 ((hresolve v).1.symm.trans hv)).1
  have htaken {v : Text} {n : Int} (denotes : Denotes v n) (few : v.countP isDigit ≤ digitLimit) :
      LevelTaken t (line.argv (levelItem v)) n ∧
        (resolve t.settings (line.argv (levelItem v))).inputs = .ok inputs ∧
        (resolve t.settings (line.argv (levelItem v))).settings = { base with targetApi := n } := by
    have hinteger : Decimal.isInteger v = true := Decimal.isInteger_iff.2 ⟨n, denotes⟩
    obtain ⟨hreports, hrest⟩ := hresolve v
    obtain ⟨hinputs, hsettings⟩ := hrest fun _ => by rwa [Decimal.length_of_denotes denotes]
    rw [if_pos hinteger] at hreports hsettings
    rw [Decimal.denoted_of_denotes denotes] at hsettings
    exact ⟨levelTaken_of_resolved hreports (by rw [hsettings]) hinputs, hinputs, hsettings⟩
  refine ⟨fun v n denotes few => (htaken denotes few).1, fun v hnone => ?_,
    fun v v' n n' denotes denotes' few few' => ?_, fun n hn => ?_⟩
  · have hinteger : ¬ Decimal.isInteger v = true := fun h => by
      obtain ⟨n, hn⟩ := Decimal.isInteger_iff.1 h
      exact hnone n hn
    obtain ⟨hreports, hrest⟩ := hresolve v
    obtain ⟨hinputs, hsettings⟩ := hrest fun h => absurd h hinteger
    rw [if_neg hinteger] at hreports hsettings
    exact levelRefused_of_resolved hreports (by rw [hsettings]; rfl) hinputs
  · obtain ⟨taken, hinputs, hsettings⟩ := htaken denotes few
    obtain ⟨taken', hinputs', hsettings'⟩ := htaken denotes' few'
    exact levelTold_of_taken taken taken' (hinputs'.trans hinputs.symm) fun heq => by rw [hsettings, hsettings', heq]
  · have few : (Text.ofInt n).countP isDigit ≤ digitLimit := (Decimal.count_ofInt_le (by decide)).2 hn
    exact ⟨_, Decimal.canonical_iff.2 rfl, few, (htaken (Decimal.ofInt_denotes n) few).1⟩

/-- A script to be compiled for a level that is said with zeros, after one that is none. -/
def zerosLine : OpenLine .level where
  prog := "rscc"
  before := [levelItem "+7"]
  later := [.input "main.rs" rfl]
  last := List.forall_mem_singleton.2 rfl

def zerosArgs : List Text := ["rscc", "-target-api", "+7", "-target-api", "-007", "main.rs"]

def zerosCommand : List Text :=
  ["clang", "-target", "armv7-none-linux-gnueabi", "-Xclang", "-target-feature", "-Xclang", "+long64", "-x", "c",
    "-std=c99", "-DRS_VERSION=-7", "-c", "-emit-llvm", "-o", "main.bc", "main.rs"]

def quietDriver : Driver := { toolchain := some {}, prints := false }

theorem zeros_denote : Denotes "-007" (-7) := @Denotes.minus _ [0, 0, 7] ⟨List.cons_ne_nil _ _, by decide, rfl⟩

theorem plus_denotes_nothing (n : Int) : ¬ Denotes "+7" n := fun h =>
  absurd (Decimal.isInteger_iff.2 ⟨n, h⟩) (by decide)

theorem zerosLine_accepted : zerosLine.OtherwiseAccepted (Toolchain.settings {}) := by
  obtain ⟨-, -, hreports⟩ := resolve_of_said (Toolchain.settings {}) (zerosLine.argv (levelItem "0")) _
    (List.cons_ne_nil _ _) (zerosLine.said _)
  exact ⟨"0", List.map_eq_nil_iff.1 (hreports.trans (by rfl))⟩

theorem level_endToEnd_zeros : quietDriver.Reads (Backend.freshWorld [] []) zerosArgs {} zerosArgs ∧
    LevelTaken {} zerosArgs (-7) ∧ LevelRefused {} (zerosLine.argv (levelItem "+7")) "+7" ∧
    (quietDriver.newRuns zerosArgs (Backend.freshWorld [] [])).map (·.command) = [zerosCommand] := by
  have reads : quietDriver.Reads (Backend.freshWorld [] []) zerosArgs {} zerosArgs := ⟨rfl, _, rfl⟩
  obtain ⟨htaken, hrefused, -⟩ := (level_endToEnd {}).2 zerosLine zerosLine_accepted
  have taken : LevelTaken {} zerosArgs (-7) := htaken _ _ zeros_denote (by decide)
  refine ⟨reads, taken, hrefused _ plus_denotes_nothing, ?_⟩
  obtain ⟨hsettings, hinputs, -⟩ := resolve_of_said (Toolchain.settings {}) zerosArgs _ (List.cons_ne_nil _ _)
    (zerosLine.said (levelItem "-007"))
  unfold Driver.newRuns
  rw [run_outside reads taken.accepted (hinputs.trans (by rfl)), hsettings]
  decide +kernel

end ScriptDriver
