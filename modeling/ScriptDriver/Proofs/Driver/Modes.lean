import ScriptDriver.Proofs.Backend.Outcomes
import ScriptDriver.Proofs.Driver.Handover
import ScriptDriver.Proofs.Output.Decomposition
import ScriptDriver.Proofs.Settings.OpenLine
/-!
# Modes — dependency files by themselves and along with the bitcode

Dependency files can be asked for by themselves or along with the bitcode.  Unless they are sent to a directory of their
own, that makes no difference to them: a command line and the same one with the other mode come to the same settings but
for the output type, and to the same dependency pairs.  So they write the same rules (`modes_sameBuild`).
-/
namespace ScriptDriver

open CommandLine

/-! ## Command lines with a mode -/

/-- The modes: nothing but dependency files, and dependency files too. -/
inductive Mode where
  | only
  | too
  deriving DecidableEq

namespace Mode

def name : Mode → Text
  | .only => "-M"
  | .too => "-MD"

theorem listed (mode : Mode) : mode.name ∈ flagNames := by cases mode <;> decide

def item (mode : Mode) : Item := .flag mode.name mode.listed

/-- The output type, unless an option asks for another one. -/
def type : Mode → OutputType
  | .only => .dependency
  | .too => .bitcode

theorem item_type (mode : Mode) :
    (if mode.item.arg.id = .dependencyOnly then OutputType.dependency else .bitcode) = mode.type := by
  cases mode <;> rfl

theorem item_isAbout (mode : Mode) : mode.item.isAbout .mode = true := by cases mode <;> decide

theorem takes_nothing (mode : Mode) :
    mode.name ∉ valueNames ∧ mode.name ≠ includeName ∧ mode.name ≠ storageName := by cases mode <;> decide

theorem eq_item {mode : Mode} {item : Item} (h : item.name? = some mode.name) : item = mode.item := by
  obtain ⟨hvalue, hinclude, hstorage⟩ := mode.takes_nothing
  cases item with
  | flag name listed =>
    obtain rfl : name = mode.name := Option.some.inj h
    rfl
  | input | unknown => cases h
  | valued name listed value => exact absurd (Option.some.inj h ▸ listed) hvalue
  | includeDir => exact absurd (Option.some.inj h).symm hinclude
  | storage => exact absurd (Option.some.inj h).symm hstorage

end Mode

/-- **A command line with a mode as its last word on dependency files**, and nothing said about where they go. -/
structure ModeLine extends OpenLine .mode where
  inPlace : ∀ item ∈ before ++ later, item.isAbout .dependencyDir = false

namespace ModeLine

def items (line : ModeLine) (mode : Mode) : List Item := line.toOpenLine.items mode.item

def argv (line : ModeLine) (mode : Mode) : List Text := line.toOpenLine.argv mode.item

/-- **Every command line with a mode as its last word on dependency files is one of these.** -/
theorem exists_of_last {argv : List Text} {items : List Item} (hsaid : Said argv.tail items none) {mode : Mode}
    {item : Item} (hlast : lastNamed modeNames items = some item) (hname : item.name? = some mode.name)
    (inPlace : ∀ item ∈ items, item.isAbout .dependencyDir = false) : ∃ line : ModeLine, argv = line.argv mode := by
  obtain rfl := Mode.eq_item hname
  unfold lastNamed at hlast
  rw [← funext isAbout_mode] at hlast
  obtain ⟨line, rfl, rfl⟩ := OpenLine.exists_of_last hsaid hlast
  refine ⟨⟨line, fun other hother => inPlace other ?_⟩, rfl⟩
  exact ((List.sublist_cons_self mode.item line.later).append_left line.before).subset hother

end ModeLine

/-! ## What the mode decides -/

section
variable {line : ModeLine} {mode : Mode} {m : Matched}
  (hargs : m.args.map Arg.unplaced = (line.items mode).map Item.arg)
include hargs

theorem last?_mode : (m.last? [.dependencyGroup]).map Arg.unplaced = some mode.item.arg := by
  have hlast := congrArg List.getLast? (filtered_topic hargs .mode)
  rw [List.getLast?_map, List.getLast?_map, ModeLine.items, line.filter_last mode.item_isAbout] at hlast
  exact hlast

theorem filled_mode (s : Settings) :
    (s.filled m).withDependencies = true ∧ (s.filled m).outputType = (askedType m).getD mode.type := by
  obtain ⟨a, ha, harg⟩ := Option.map_eq_some_iff.1 (last?_mode hargs)
  have hid : a.id = mode.item.arg.id := by rw [← harg]; rfl
  rw [filled_withDependencies, filled_outputType, ha, Option.map_some, hid, mode.item_type]
  refine ⟨Bool.or_true _, ?_⟩
  show ((askedType m).or (some mode.type)).getD s.outputType = _
  cases askedType m <;> rfl

theorem askedType_ne {type : OutputType} (h : askedType m = some type) : type ≠ .dependency := by
  obtain ⟨a, ha, htype⟩ := Option.bind_eq_some_iff.1 h
  obtain ⟨wanted, hwanted, -, hdependency⟩ := wanted_of_last? hargs ha
  exact Option.some.inj (hwanted.symm.trans htype) ▸ hdependency

/-- **Either mode goes with an option for bitcode and with no other output type.** -/
theorem conflictReports_mode (s : Settings) :
    m.conflictReports (s.filled m) = [] ↔ ∀ type ∈ askedType m, type = .bitcode := by
  obtain ⟨hwanted, htype⟩ := filled_mode hargs s
  rw [conflictReports_eq, hwanted, htype, Bool.true_and]
  cases hasked : askedType m with
  | none => cases mode <;> simp [Mode.type, OutputType.allowsDependencies]
  | some type =>
    have hne := askedType_ne hargs hasked
    simp [OutputType.allowsDependencies, hne]

end

theorem type_of_asked {asked : Option OutputType} (h : ∀ type ∈ asked, type = .bitcode) (mode : Mode) :
    asked.getD mode.type = mode.type ∨ asked.getD mode.type = .bitcode := by
  cases asked with
  | none => exact .inl rfl
  | some type => exact .inr (h type rfl)

theorem problemsAround_mode (line : ModeLine) (mode : Mode) (conflict : List Diagnostic) :
    problemsAround conflict (line.items mode) none = problemsAround conflict (line.before ++ line.later) none := by
  have hmode := mode.item_isAbout
  unfold problemsAround badPlace? lastValueNamed badLevel? ModeLine.items
  rw [line.unknowns_items rfl, line.lastNamed_items hmode isAbout_place nofun,
    line.lastNamed_items hmode isAbout_level nofun]

/-! ## Dependency files in their place -/

/-- **Dependency files without a directory of their own** lie beside the bitcode, whichever of them the run produces. -/
theorem dependencies_inPlace {s : Settings} (inPlace : s.dependencyDir = s.outputDir)
    (wanted : s.withDependencies = true) (inputs : List Text) : (Output.plan s inputs).dependencies =
      inputs.map fun input => (Output.path s.outputDir input .bitcode, Output.path s.outputDir input .dependency) := by
  have hdirs : s.pairDirs = (s.outputDir, s.outputDir) := by
    unfold Settings.pairDirs
    rw [inPlace, ite_self, ite_self]
  calc (Output.plan s inputs).dependencies
      = inputs.map fun input => Output.dependencyPair s input (Output.primary s input) := if_pos wanted
    _ = _ := List.map_congr_left fun input _ => by
      obtain ⟨hbitcode, hdependency, -, -⟩ := pairFor_of s inputs input
      rw [hdirs] at hbitcode hdependency
      exact Prod.ext hbitcode hdependency

theorem planned_inputs (s : Settings) (inputs : List Text) :
    (Batch.of s inputs).plan.outputs.map Prod.fst = inputs := by
  show (inputs.map fun input => (input, Output.primary s input)).map Prod.fst = inputs
  rw [List.map_map]
  exact List.map_id inputs

theorem filled_inPlace {line : ModeLine} {mode : Mode} {m : Matched}
    (hargs : m.args.map Arg.unplaced = (line.items mode).map Item.arg) (s : Settings) :
    (s.filled m).dependencyDir = (s.filled m).outputDir := by
  have hnone : m.last? [.dependencyDir] = none := by
    have hfiltered := filtered_topic hargs .dependencyDir
    rw [ModeLine.items, line.filter_items mode.item_isAbout (r := .dependencyDir) nofun,
      List.filter_eq_nil_iff.2 fun item hitem => Bool.eq_false_iff.1 (line.inPlace item hitem)] at hfiltered
    exact List.getLast?_eq_none_iff.2 (List.map_eq_nil_iff.1 hfiltered)
  show m.lastValue .dependencyDir (s.filled m).outputDir = _
  unfold Matched.lastValue
  rw [hnone]

/-! ## The same build -/

/-- **A batch that nothing keeps from its end.** -/
structure Backend.Undisturbed (c : Backend.Compiler) (b : Batch) (w : World Backend.Session) : Prop where
  sound : Backend.Sound c w.outside.outcomes
  unhindered : Backend.Unhindered c b w
  digits : Backend.WithinDigits b

/-- **Settings that describe the same dependency files for some inputs**, `s` at most these and `s'` the bitcode too.
What the one batch writes for an input, the other one writes if it compiles that input. -/
structure SameBuild (s s' : Settings) (inputs : List Text) : Prop where
  settings : s' = { s with outputType := .bitcode }
  type : s.outputType = .dependency ∨ s.outputType = .bitcode
  plan : (Output.plan s' inputs).dependencies = (Output.plan s inputs).dependencies
  pairs : (Output.plan s inputs).dependencies =
    inputs.map fun input => (Output.path s.outputDir input .bitcode, Output.path s.outputDir input .dependency)
  directory : ∀ pair ∈ (Output.plan s inputs).dependencies,
    (File.Path.ofText pair.1).parent = File.Path.ofText s.outputDir ∧
      (File.Path.ofText pair.2).parent = File.Path.ofText s.outputDir
  rules : ∀ {c c' : Backend.Compiler} {w w' : World Backend.Session},
    Backend.Undisturbed c (Batch.of s inputs) w → Backend.Undisturbed c' (Batch.of s' inputs) w' →
      ∀ (i : Nat) (t t' : Backend.Turn) (input : Text) (pair : Text × Text),
        (Backend.Turn.all c (Batch.of s inputs) w)[i]? = some t →
        (Backend.Turn.all c' (Batch.of s' inputs) w')[i]? = some t' →
        Backend.Succeeds (Batch.of s inputs) w.outside.outcomes i →
        Backend.DueAt (Batch.of s' inputs) w'.outside.outcomes i input pair →
          ∃ text, t.Writes c (Batch.of s inputs) pair.2 text ∧ t'.Writes c' (Batch.of s' inputs) pair.2 text

theorem sameBuild_of_inPlace {s s' : Settings} (hsettings : s' = { s with outputType := .bitcode })
    (type : s.outputType = .dependency ∨ s.outputType = .bitcode) (inPlace : s.dependencyDir = s.outputDir)
    (wanted : s.withDependencies = true) (inputs : List Text) : SameBuild s s' inputs := by
  subst hsettings
  have hpairs := dependencies_inPlace inPlace wanted inputs
  have hpairs' := dependencies_inPlace (s := { s with outputType := .bitcode }) inPlace wanted inputs
  constructor
  case settings => rfl
  case type => exact type
  case plan => exact hpairs'.trans hpairs.symm
  case pairs => exact hpairs
  case directory =>
    intro pair hpair
    rw [hpairs] at hpair
    obtain ⟨input, -, rfl⟩ := List.mem_map.1 hpair
    exact ⟨Output.parent_path (by decide : OutputType.bitcode ≠ .nothing),
      Output.parent_path (by decide : OutputType.dependency ≠ .nothing)⟩
  case rules =>
    intro c c' w w' free free' i t t' input pair ht ht' succeeded due'
    have kept := Backend.kept_of_withinDigits free.sound free.unhindered free.digits
    have kept' := Backend.kept_of_withinDigits free'.sound free'.unhindered free'.digits
    have due : Backend.DueAt (Batch.of s inputs) w.outside.outcomes i input pair := by
      constructor
      case wanted => exact wanted
      case listed =>
        have hlisted := due'.listed
        rw [← List.getElem?_map, planned_inputs] at hlisted ⊢
        exact hlisted
      case paired => exact (hpairs.trans hpairs'.symm) ▸ due'.paired
      case succeeded => exact succeeded
    exact ⟨_, Backend.writes_of_due kept ht free.unhindered due,
      Backend.writes_of_due kept' ht' free'.unhindered due'⟩

theorem exists_reading (line : ModeLine) (mode : Mode) (s : Settings) : ∃ m : Matched,
    m.args.map Arg.unplaced = (line.items mode).map Item.arg ∧ resolve s (line.argv mode) = .ofMatched s m ∧
      (resolve s (line.argv mode)).reports =
        problemsAround (m.conflictReports (s.filled m)) (line.before ++ line.later) none := by
  obtain ⟨m, hargs, hresolve, hreports⟩ := line.toOpenLine.exists_reading mode.item s
  exact ⟨m, hargs, hresolve, hreports.trans (problemsAround_mode line mode _)⟩

/-- **What the mode decides**, among all that a command line resolves to. -/
theorem ofMatched_alikeApart {m m' : Matched} (h : AlikeApart [.mode] m m') (s : Settings) :
    (Resolution.ofMatched s m').inputs = (Resolution.ofMatched s m).inputs ∧ ∃ type wanted,
      (Resolution.ofMatched s m').settings =
        { (Resolution.ofMatched s m).settings with outputType := type, withDependencies := wanted } := by
  obtain ⟨type, wanted, hfilled⟩ := filled_alikeApart (h.mono (by decide)) s
  unfold Resolution.ofMatched
  rw [hfilled, inputs_alikeApart h (by decide)]
  rcases lastInteger_congr .targetApi (lastMeaning_alikeApart h (t := .level) (by decide)) with hsame | ⟨b, b', hb, hb'⟩
  · rw [hsame]
    cases m'.lastInteger .targetApi <;> exact ⟨rfl, _, _, rfl⟩
  · rw [hb, hb']
    exact ⟨rfl, _, _, rfl⟩

theorem settings_mode {line : ModeLine} {mode : Mode} {m : Matched}
    (hargs : m.args.map Arg.unplaced = (line.items mode).map Item.arg) {s r : Settings}
    (hr : r = (Resolution.ofMatched s m).settings) :
    r.withDependencies = true ∧ r.outputType = (askedType m).getD mode.type ∧ r.dependencyDir = r.outputDir := by
  obtain ⟨n, hn⟩ := ofMatched_settings s m
  rw [hr, hn]
  obtain ⟨hwanted, htype⟩ := filled_mode hargs s
  exact ⟨hwanted, htype, filled_inPlace hargs s⟩

/-- **The two modes describe the same build**, wherever the settings come from: if a command line with the one is accepted
and nothing is said about where dependency files go, then the same with the other is accepted too, and its dependency
files are the same. -/
theorem modes_sameBuild (s : Settings) :
    (∀ argv items item, Said argv.tail items none → lastNamed modeNames items = some item →
      item.name? = some Mode.only.name → (∀ item ∈ items, item.isAbout .dependencyDir = false) →
        ∃ line : ModeLine, argv = line.argv .only) ∧
    ∀ (line : ModeLine) (inputs : List Text), (resolve s (line.argv .only)).reports = [] →
      (resolve s (line.argv .only)).inputs = .ok inputs →
        (resolve s (line.argv .too)).reports = [] ∧ (resolve s (line.argv .too)).inputs = .ok inputs ∧
          SameBuild (resolve s (line.argv .only)).settings (resolve s (line.argv .too)).settings inputs := by
  refine ⟨fun _ _ _ hsaid hlast hname => ModeLine.exists_of_last hsaid hlast hname, ?_⟩
  intro line inputs accepted returned
  obtain ⟨m, hargs, hresolve, hreports⟩ := exists_reading line .only s
  obtain ⟨m', hargs', hresolve', hreports'⟩ := exists_reading line .too s
  have halike := OpenLine.alikeApart Mode.only.item_isAbout Mode.too.item_isAbout hargs hargs'
  have hasked : ∀ type ∈ askedType m, type = .bitcode := by
    refine (conflictReports_mode hargs s).1 ?_
    rw [hreports] at accepted
    unfold problemsAround at accepted
    simp only [List.append_eq_nil_iff] at accepted
    exact accepted.1.1.2
  have hasked' : ∀ type ∈ askedType m', type = .bitcode := by rwa [← askedType_alikeApart halike (by decide)]
  rw [(conflictReports_mode hargs s).2 hasked] at hreports
  rw [(conflictReports_mode hargs' s).2 hasked', ← hreports, accepted] at hreports'
  obtain ⟨hinputs, type, wanted, hsettings⟩ := ofMatched_alikeApart halike s
  rw [← hresolve, ← hresolve'] at hinputs hsettings
  refine ⟨hreports', hinputs.trans returned, ?_⟩
  obtain ⟨hdependencies, htype, inPlace⟩ := settings_mode hargs (congrArg Resolution.settings hresolve)
  obtain ⟨hdependencies', htype', -⟩ := settings_mode hargs' (congrArg Resolution.settings hresolve')
  have htoo := htype'.trans ((type_of_asked hasked' .too).elim id id)
  refine sameBuild_of_inPlace ?_ (htype ▸ type_of_asked hasked .only) inPlace hdependencies inputs
  rw [hsettings] at htoo hdependencies' ⊢
  rw [show type = .bitcode from htoo, show wanted = true from hdependencies', ← hdependencies]

/-- Scripts compiled to a directory, with a mode that another one overrides. -/
def besideLine : ModeLine where
  toOpenLine :=
    { prog := "rscc"
      before := [.input "lib/my-sum.rs" rfl, .flag "-MD" (by decide), .valued "-o" (by decide) "out"]
      later := [.includeDir "inc" (by decide), .input "max.rs" rfl]
      last := by decide }
  inPlace := by decide

theorem modes_sameBuild_beside :
    besideLine.argv .only = ["rscc", "lib/my-sum.rs", "-MD", "-o", "out", "-M", "-Iinc", "max.rs"] ∧
    (resolve {} (besideLine.argv .too)).inputs = .ok ["lib/my-sum.rs", "max.rs"] ∧
    (Output.plan (resolve {} (besideLine.argv .too)).settings ["lib/my-sum.rs", "max.rs"]).dependencies =
      [(("out/my_sum.bc" : Text), ("out/my-sum.d" : Text)), (("out/max.bc" : Text), ("out/max.d" : Text))] := by
  obtain ⟨hsettings, hinputs, hreports⟩ :=
    resolve_of_said {} (besideLine.argv .only) _ (List.cons_ne_nil _ _) (besideLine.toOpenLine.said _)
  obtain ⟨-, hinputs', hsame⟩ := (modes_sameBuild {}).2 besideLine ["lib/my-sum.rs", "max.rs"]
    (List.map_eq_nil_iff.1 (hreports.trans (by rfl))) (hinputs.trans (by rfl))
  exact ⟨rfl, hinputs', hsame.plan.trans (by rw [hsettings]; rfl)⟩

end ScriptDriver
