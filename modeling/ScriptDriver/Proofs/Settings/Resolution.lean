import ScriptDriver.Proofs.CommandLine.Tiling
import ScriptDriver.Proofs.Diagnostic.Reporting
import ScriptDriver.Settings.Resolve
/-!
# Resolution — what a command line can and cannot do to the settings

Every problem that resolving reports is an error, and its message can be made.  The target is out of reach of the
command line.  The help screen and the version banner are shown exactly if one of their spellings stands at the place
of an option.
-/
namespace ScriptDriver

open CommandLine

/-! ## Problems -/

/-- A problem with a command line: it has all that its message needs, it fails the run, and it is not about inputs. -/
structure Diagnostic.OfCommandLine (p : Diagnostic) : Prop where
  complete : p.Complete
  fails : p.severity.fails = true
  ofOptions : p.id ≠ .noInputFiles

theorem missingReports_ofCommandLine (m : Matched) : ∀ p ∈ m.missingReports, p.OfCommandLine := by
  unfold Matched.missingReports
  cases m.shortage with
  | none => exact fun p hp => absurd hp List.not_mem_nil
  | some s =>
    intro p hp
    rw [List.mem_singleton.1 hp]
    exact ⟨Nat.le_succ 1, rfl, DiagnosticId.noConfusion⟩

theorem unknownReports_ofCommandLine (m : Matched) : ∀ p ∈ m.unknownReports, p.OfCommandLine := by
  intro p hp
  obtain ⟨a, -, rfl⟩ := List.mem_map.1 hp
  exact ⟨Nat.le_refl 1, rfl, DiagnosticId.noConfusion⟩

theorem conflictReports_ofCommandLine (m : Matched) (s : Settings) : ∀ p ∈ m.conflictReports s, p.OfCommandLine := by
  unfold Matched.conflictReports
  split
  · intro p hp
    rw [List.mem_singleton.1 hp]
    exact ⟨Nat.le_refl 2, rfl, DiagnosticId.noConfusion⟩
  · exact fun p hp => absurd hp List.not_mem_nil

theorem storageReports_ofCommandLine (m : Matched) : ∀ p ∈ m.storageReports, p.OfCommandLine := by
  unfold Matched.storageReports
  simp only
  split
  · exact fun p hp => absurd hp List.not_mem_nil
  · intro p hp
    rw [List.mem_singleton.1 hp]
    exact ⟨Nat.le_refl 2, rfl, DiagnosticId.noConfusion⟩

theorem levelReports_ofCommandLine (m : Matched) : ∀ p ∈ m.levelReports, p.OfCommandLine := by
  unfold Matched.levelReports
  split
  · intro p hp
    rw [List.mem_singleton.1 hp]
    exact ⟨Nat.le_refl 2, rfl, DiagnosticId.noConfusion⟩
  · exact fun p hp => absurd hp List.not_mem_nil

theorem ofMatched_ofCommandLine (defaults : Settings) (m : Matched) :
    ∀ p ∈ (Resolution.ofMatched defaults m).reports, p.OfCommandLine := by
  intro p hp
  have hmem : p ∈ m.missingReports ++ m.unknownReports ++ m.conflictReports (defaults.filled m) ++ m.storageReports ++
      m.levelReports := by
    unfold Resolution.ofMatched at hp
    simp only at hp
    split at hp <;> exact hp
  simp only [List.mem_append] at hmem
  rcases hmem with (((h | h) | h) | h) | h
  · exact missingReports_ofCommandLine m p h
  · exact unknownReports_ofCommandLine m p h
  · exact conflictReports_ofCommandLine m _ p h
  · exact storageReports_ofCommandLine m p h
  · exact levelReports_ofCommandLine m p h

/-- **A command line that is resolved**: it has nothing after the program, or it is read against the standard table. -/
theorem resolve_cases (defaults : Settings) (argv : List Text) :
    (argv.tail = [] ∧ resolve defaults argv = ⟨defaults, [], .ok []⟩) ∨
    ∃ m, standard.read argv.tail = .ok m ∧ resolve defaults argv = .ofMatched defaults m := by
  unfold resolve
  split
  · exact .inl ⟨rfl, rfl⟩
  · exact .inl ⟨rfl, rfl⟩
  · rename_i prog tokens hne
    obtain ⟨m, hm, -⟩ := OptionTable.read_of_closed standard_closed tokens
    exact .inr ⟨m, hm, by rw [hm]⟩

theorem resolve_of_tail_nil (defaults : Settings) : ∀ {argv : List Text}, argv.tail = [] →
    resolve defaults argv = ⟨defaults, [], .ok []⟩
  | [], _ => rfl
  | [_], _ => rfl

theorem resolve_of_read (defaults : Settings) {argv : List Text} (hsome : argv.tail ≠ []) {m : Matched}
    (hm : standard.read argv.tail = .ok m) : resolve defaults argv = .ofMatched defaults m := by
  rcases resolve_cases defaults argv with ⟨hnil, -⟩ | ⟨n, hn, h⟩
  · exact absurd hnil hsome
  · rw [h, Except.ok.inj (hm.symm.trans hn)]

/-- **All that resolving reports are problems with the command line.** -/
theorem resolve_ofCommandLine (defaults : Settings) (argv : List Text) :
    ∀ p ∈ (resolve defaults argv).reports, p.OfCommandLine := by
  rcases resolve_cases defaults argv with ⟨-, h⟩ | ⟨m, -, h⟩
  · rw [h]
    exact fun p hp => absurd hp List.not_mem_nil
  · rw [h]
    exact ofMatched_ofCommandLine defaults m

/-! ## Settings -/

theorem Settings.filled_target (defaults : Settings) (m : Matched) : (defaults.filled m).target = defaults.target := by
  unfold filled
  simp only
  cases m.last? [.dependencyGroup] <;> cases m.last? [.outputGroup] <;> rfl

theorem ofMatched_settings (defaults : Settings) (m : Matched) :
    ∃ n, (Resolution.ofMatched defaults m).settings = { defaults.filled m with targetApi := n } := by
  unfold Resolution.ofMatched
  simp only
  split
  · exact ⟨_, rfl⟩
  · exact ⟨_, rfl⟩
  · exact ⟨_, rfl⟩
  · exact ⟨_, rfl⟩

/-- **No command line changes the target.** -/
theorem resolve_target (defaults : Settings) (argv : List Text) :
    (resolve defaults argv).settings.target = defaults.target := by
  rcases resolve_cases defaults argv with ⟨-, h⟩ | ⟨m, -, h⟩
  · rw [h]
  · obtain ⟨n, hn⟩ := ofMatched_settings defaults m
    rw [h, hn]
    exact defaults.filled_target m

/-- The options of a command line as they are spelled, the name of the program first. -/
def spellings (argv : List Text) : List Text :=
  match standard.read argv.tail with
  | .ok m => m.args.map (·.spelling.name)
  | .error _ => []

def helpSpellings : List Text := ["-help", "--help"]
def versionSpellings : List Text := ["-version", "--version"]

/-- What the options with an identifier are spelled as: the names of the rows that stand for it. -/
def Spells (names : List Text) (id : OptionId) : Prop :=
  id ≠ .input ∧ id ≠ .unknown ∧ Descriptor.input.name ∉ names ∧ Descriptor.unknown.name ∉ names ∧
    ∀ d ∈ standard.rows, (standardOption d).group ≠ some id ∧ ((standardOption d).id = id ↔ d.name ∈ names)

theorem spells_help : Spells helpSpellings .help := by unfold Spells; decide

theorem spells_version : Spells versionSpellings .version := by unfold Spells; decide

theorem among_singleton (a : Arg) (id : OptionId) :
    a.among [id] = true ↔ a.option.id = id ∨ a.option.group = some id := by
  unfold Arg.among Arg.id
  cases a.option.group <;> simp

/-- **An argument counts as an option exactly if it is spelled as one of its names.** -/
theorem among_iff {names : List Text} {id : OptionId} (h : Spells names id) {a : Arg} (ha : a.Of standard) :
    a.among [id] = true ↔ a.spelling.name ∈ names := by
  obtain ⟨hin, hun, hni, hnu, hrows⟩ := h
  rw [among_singleton]
  cases ha with
  | input ho hs =>
    rw [ho, hs]
    exact ⟨fun h => h.elim (fun h => absurd h.symm hin) (fun h => by cases h), fun h => absurd h hni⟩
  | unknown ho hs =>
    rw [ho, hs]
    exact ⟨fun h => h.elim (fun h => absurd h.symm hun) (fun h => by cases h), fun h => absurd h hnu⟩
  | row hs ho =>
    have hrow := (OptionTable.mem_matchable.1 hs).1
    have hoption := Except.ok.inj ((resolve_standard hrow).symm.trans ho)
    obtain ⟨hg, hid⟩ := hrows a.spelling hrow
    rw [hoption] at hg hid
    rw [← hid]
    exact ⟨fun h => h.resolve_right hg, .inl⟩

theorem has_iff {names : List Text} {id : OptionId} (h : Spells names id) {argv : List Text} {m : Matched}
    (hm : standard.read argv.tail = .ok m) : m.has [id] = true ↔ ∃ name ∈ names, name ∈ spellings argv := by
  obtain ⟨m', hm', -, covered, htiles, -⟩ := OptionTable.read_of_closed standard_closed argv.tail
  obtain rfl : m' = m := Except.ok.inj (hm'.symm.trans hm)
  rw [spellings, hm]
  simp only [Matched.has, List.any_eq_true, List.mem_map]
  constructor
  · rintro ⟨a, ha, hamong⟩
    exact ⟨_, (among_iff h (htiles.of a ha)).1 hamong, a, ha, rfl⟩
  · rintro ⟨name, hname, a, ha, rfl⟩
    exact ⟨a, ha, (among_iff h (htiles.of a ha)).2 hname⟩

theorem spellings_of_tail_nil {argv : List Text} (h : argv.tail = []) : spellings argv = [] := by
  rw [spellings, h]
  rfl

/-- **The help screen is asked for by its spellings**, unless it was asked for before. -/
theorem resolve_showHelp (defaults : Settings) (argv : List Text) (hd : defaults.showHelp = false) :
    (resolve defaults argv).settings.showHelp = true ↔ ∃ name ∈ helpSpellings, name ∈ spellings argv := by
  rcases resolve_cases defaults argv with ⟨htail, h⟩ | ⟨m, hm, h⟩
  · rw [h, spellings_of_tail_nil htail, hd]
    simp
  · obtain ⟨n, hn⟩ := ofMatched_settings defaults m
    rw [h, hn]
    exact has_iff spells_help hm

/-- **The version banner is asked for by its spellings**, unless it was asked for before. -/
theorem resolve_showVersion (defaults : Settings) (argv : List Text) (hd : defaults.showVersion = false) :
    (resolve defaults argv).settings.showVersion = true ↔ ∃ name ∈ versionSpellings, name ∈ spellings argv := by
  rcases resolve_cases defaults argv with ⟨htail, h⟩ | ⟨m, hm, h⟩
  · rw [h, spellings_of_tail_nil htail, hd]
    simp
  · obtain ⟨n, hn⟩ := ofMatched_settings defaults m
    rw [h, hn]
    exact has_iff spells_version hm

end ScriptDriver
