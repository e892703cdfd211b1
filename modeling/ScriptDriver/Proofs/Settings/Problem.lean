import ScriptDriver.Proofs.CommandLine.Query
import ScriptDriver.Proofs.Settings.Resolution
/-!
# Problem — what is wrong with a command line

The problems with a command line are read off its items: an option at the end that has no value, tokens that look like
options and are none, an output type that dependency files cannot be written along with, a place for the bitcode that is
none, and a level that is no integer.  These are what is reported, each by itself and in this order
(`resolve_problems`), so a command line is accepted exactly if it has none of them.
-/
namespace ScriptDriver

open CommandLine

/-! ## Names -/

/-- The options that ask for dependency files, for an output type, for a place of the bitcode, and for a level. -/
def modeNames : List Text := ["-M", "-MD"]
def typeNames : List Text := ["-emit-asm", "-S", "-emit-llvm", "-emit-bc", "-emit-nothing"]
def placeNames : List Text := ["-bitcode-storage", "-bitcode-storage=", "-s"]
def levelNames : List Text := ["-target-api"]

/-- The one output type that dependency files can be written along with. -/
def bitcodeName : Text := "-emit-bc"

theorem countsAs_mode : CountsAs modeNames .dependencyGroup := ⟨nofun, nofun, rfl⟩

theorem countsAs_type : CountsAs typeNames .outputGroup := ⟨nofun, nofun, rfl⟩

theorem countsAs_place : CountsAs placeNames .bitcodeStorage := ⟨nofun, nofun, rfl⟩

theorem countsAs_level : CountsAs levelNames .targetApi := ⟨nofun, nofun, rfl⟩

/-! ## Problems -/

/-- The dependency mode and the output type that do not go together. -/
def conflict? (items : List Item) : Option (Item × Item) :=
  match lastNamed modeNames items, lastNamed typeNames items with
  | some mode, some type => if type.name? = some bitcodeName then none else some (mode, type)
  | _, _ => none

/-- The place for the bitcode that is none; no text at all says nothing. -/
def badPlace? (items : List Item) : Option Text :=
  (lastValueNamed placeNames items).filter fun place => place ∉ ([[], "ar", "jc"] : List Text)

/-- The level that is no integer. -/
def badLevel? (items : List Item) : Option Item :=
  (lastNamed levelNames items).filter fun level => !Decimal.isInteger level.value

/-- **The problems with a command line**, from its items and the name of an option at the end without its value. -/
def problems (items : List Item) (last : Option Text) : List Diagnostic :=
  (last.toList.map fun name => .of .missingArgument [.text name, .number 1]) ++
    ((items.filterMap Item.unknown?).map fun token => .of .unknownArgument [.text token]) ++
    ((conflict? items).toList.map fun pair => .of .notAllowedWith [.text pair.1.written, .text pair.2.written]) ++
    ((badPlace? items).toList.map fun place => .of .invalidValue [.text "-bitcode-storage", .text place]) ++
    (badLevel? items).toList.map fun level => .of .invalidInteger [.text level.written, .text level.value]

/-- The problems with a command line, with reports of a mode and an output type that do not go together in their place. -/
def problemsAround (conflict : List Diagnostic) (items : List Item) (last : Option Text) : List Diagnostic :=
  (last.toList.map fun name => .of .missingArgument [.text name, .number 1]) ++
    ((items.filterMap Item.unknown?).map fun token => .of .unknownArgument [.text token]) ++ conflict ++
    ((badPlace? items).toList.map fun place => .of .invalidValue [.text "-bitcode-storage", .text place]) ++
    (badLevel? items).toList.map fun level => .of .invalidInteger [.text level.written, .text level.value]

/-- **A command line without problems.** -/
structure Accepted (items : List Item) (last : Option Text) : Prop where
  finished : last = none
  known : ∀ item ∈ items, item.unknown? = none
  compatible : (∃ item ∈ items, item.isNamed modeNames) →
    ∀ type ∈ lastNamed typeNames items, type.name? = some bitcodeName
  place : ∀ place ∈ lastValueNamed placeNames items, place = [] ∨ place = "ar" ∨ place = "jc"
  level : ∀ level ∈ lastValueNamed levelNames items, Decimal.isInteger level = true

theorem lastNamed_isSome (names : List Text) (items : List Item) :
    (lastNamed names items).isSome = true ↔ ∃ item ∈ items, item.isNamed names = true := by
  unfold lastNamed
  rw [List.getLast?_isSome, ne_eq, List.filter_eq_nil_iff]
  simp

theorem conflict?_eq_none (items : List Item) : conflict? items = none ↔
    ((∃ item ∈ items, item.isNamed modeNames) → ∀ type ∈ lastNamed typeNames items,
      type.name? = some bitcodeName) := by
  rw [← lastNamed_isSome]
  unfold conflict?
  cases lastNamed modeNames items <;> cases lastNamed typeNames items <;> simp

/-- **A command line has no problems exactly if it is accepted.** -/
theorem problems_eq_nil (items : List Item) (last : Option Text) : problems items last = [] ↔ Accepted items last := by
  simp only [problems, List.append_eq_nil_iff, List.map_eq_nil_iff, Option.toList_eq_nil_iff, conflict?_eq_none,
    List.filterMap_eq_nil_iff]
  constructor
  · rintro ⟨⟨⟨⟨hlast, hunknown⟩, hconflict⟩, hplace⟩, hlevel⟩
    refine ⟨hlast, hunknown, hconflict, fun place hp => ?_, fun level hl => ?_⟩
    · simpa [or_iff_not_imp_left] using Option.filter_eq_none_iff.1 hplace place hp
    · obtain ⟨item, hitem, rfl⟩ := Option.map_eq_some_iff.1 hl
      simpa using Option.filter_eq_none_iff.1 hlevel item hitem
  · rintro ⟨hlast, hunknown, hconflict, hplace, hlevel⟩
    refine ⟨⟨⟨⟨hlast, hunknown⟩, hconflict⟩, ?_⟩, ?_⟩
    · exact Option.filter_eq_none_iff.2 fun place hp => by
        simpa [or_iff_not_imp_left] using hplace place hp
    · exact Option.filter_eq_none_iff.2 fun item hitem => by
        simpa using hlevel item.value (Option.map_eq_some_iff.2 ⟨item, hitem, rfl⟩)

/-! ## What is reported -/

theorem filled_withDependencies (defaults : Settings) (m : Matched) : (defaults.filled m).withDependencies =
    (defaults.withDependencies || (m.last? [.dependencyGroup]).isSome) := by
  unfold Settings.filled
  cases m.last? [.dependencyGroup] <;> cases m.last? [.outputGroup] <;> simp [Settings.withMode, Settings.withType]

theorem filled_outputType (defaults : Settings) (m : Matched) : (defaults.filled m).outputType =
    (((m.last? [.outputGroup]).bind fun a => OutputType.ofOption? a.id).or
      ((m.last? [.dependencyGroup]).map fun a => if a.id = .dependencyOnly then .dependency else .bitcode)).getD
        defaults.outputType := by
  unfold Settings.filled
  cases m.last? [.dependencyGroup] <;> cases m.last? [.outputGroup] <;>
    simp [Settings.withMode, Settings.withType, Option.or_some]

/-- Every option for an output type asks for one, and dependency files can be written along with one of them only. -/
theorem standard_types : ∀ d ∈ standard.rows, d.isMatchable = true → (rowArg d []).among [.outputGroup] = true →
    ∃ type, OutputType.ofOption? (standardOption d).id = some type ∧ type ≠ .object ∧ type ≠ .dependency ∧
      (type.allowsDependencies = true ↔ d.id = .emitBitcode) := by
  have hrows : ∀ d ∈ standard.rows, d.isMatchable = true → (rowArg d []).among [.outputGroup] = true →
      (OutputType.ofOption? (standardOption d).id).any (fun type => type ≠ .object && type ≠ .dependency &&
        (type.allowsDependencies == decide (d.id = .emitBitcode))) = true := by decide
  intro d hd hmatch hamong
  obtain ⟨type, htype, h⟩ := (Option.any_eq_true _ _).1 (hrows d hd hmatch hamong)
  simp only [Bool.and_eq_true, decide_eq_true_eq, beq_iff_eq] at h
  exact ⟨type, htype, h.1.1, h.1.2, by rw [h.2, decide_eq_true_eq]⟩

theorem bitcodeName_eq : [bitcodeName] = namesWhere fun d => d.id = .emitBitcode := rfl

/-- The output type that the last item for one asks for. -/
theorem type_of_last {items : List Item} {type : Item} (h : lastNamed typeNames items = some type) :
    ∃ wanted, OutputType.ofOption? type.arg.id = some wanted ∧ wanted ≠ .object ∧ wanted ≠ .dependency ∧
      (wanted.allowsDependencies = true ↔ type.name? = some bitcodeName) := by
  have hnamed : type.isNamed typeNames = true := (List.mem_filter.1 (List.mem_of_getLast? h)).2
  cases hname : type.name? with
  | none =>
    rw [Item.isNamed, hname] at hnamed
    cases hnamed
  | some name =>
    obtain ⟨⟨hd, hrow, hmatch⟩, harg⟩ := arg_of_name hname
    have hamong : (rowArg (rowNamed name) []).among [.outputGroup] = true := by
      rw [← among_item countsAs_type, harg] at hnamed
      exact hnamed
    obtain ⟨wanted, hwanted, hobject, hdependency, hallows⟩ := standard_types _ hd hmatch hamong
    refine ⟨wanted, by rw [harg]; exact hwanted, hobject, hdependency, hallows.trans ?_⟩
    have hmem := mem_namesWhere (p := fun d => d.id = .emitBitcode) hd
    rw [← bitcodeName_eq, and_iff_right hmatch, List.mem_singleton, hrow, decide_eq_true_eq] at hmem
    rw [← hmem, Option.some_inj]

section
variable {m : Matched} {items : List Item} (h : m.args.map Arg.unplaced = items.map Item.arg)

theorem missingReports_items {last : Option Text} (htokens : m.tokens = items.flatMap Item.tokens ++ last.toList)
    (hshortage : m.shortage = last.map fun _ => ⟨(items.flatMap Item.tokens).length, 1⟩) :
    m.missingReports = last.toList.map fun name => .of .missingArgument [.text name, .number 1] := by
  unfold Matched.missingReports
  rw [hshortage, htokens]
  cases last with
  | none => rfl
  | some name => simp

include h

theorem unknownReports_items :
    m.unknownReports = (items.filterMap Item.unknown?).map fun token => .of .unknownArgument [.text token] := by
  rw [← unknowns_items h, List.map_map]
  rfl

omit h in
theorem conflictReports_eq (m : Matched) (s : Settings) : m.conflictReports s =
    if s.withDependencies && !s.outputType.allowsDependencies then
      [.of .notAllowedWith
        [.text (((m.last? [.dependencyGroup]).map Arg.asText).getD (standard.nameOf .dependencyToo)),
          .text (((m.last? [.outputGroup]).map Arg.asText).getD s.outputType.spelling)]]
    else [] := by
  unfold Matched.conflictReports
  cases m.last? [.dependencyGroup] <;> cases m.last? [.outputGroup] <;> rfl

/-- **The last output type is the one that is filled in**, whatever the mode. -/
theorem filled_allows (defaults : Settings) {type : Item} (htype : lastNamed typeNames items = some type) :
    (defaults.filled m).outputType.allowsDependencies = true ↔ type.name? = some bitcodeName := by
  obtain ⟨wanted, hwanted, -, -, hallows⟩ := type_of_last htype
  have hlast := last?_items h countsAs_type
  rw [htype] at hlast
  obtain ⟨a, ha, harg⟩ := Option.map_eq_some_iff.1 hlast
  have hid : OutputType.ofOption? a.id = some wanted := by
    rw [← harg] at hwanted
    exact hwanted
  rw [filled_outputType, ha, Option.bind_some, hid, Option.some_or, Option.getD_some, hallows]

/-- A mode and an output type that do not go together are reported, wherever the settings come from. -/
theorem conflictReports_of_pair (defaults : Settings) {mode type : Item} (hpair : conflict? items = some (mode, type)) :
    m.conflictReports (defaults.filled m) = [.of .notAllowedWith [.text mode.written, .text type.written]] := by
  unfold conflict? at hpair
  split at hpair
  · rename_i mode' type' hmode htype
    split at hpair
    · cases hpair
    · rename_i hname
      cases hpair
      have hallows := Bool.eq_false_iff.2 (mt (filled_allows h defaults htype).1 hname)
      rw [conflictReports_eq, filled_withDependencies, isSome_items h countsAs_mode, asText_items h countsAs_mode,
        asText_items h countsAs_type, hmode, htype, hallows]
      simp
  · cases hpair

theorem conflictReports_items {defaults : Settings} (fresh : defaults.withDependencies = false) :
    m.conflictReports (defaults.filled m) =
      (conflict? items).toList.map fun pair => .of .notAllowedWith [.text pair.1.written, .text pair.2.written] := by
  cases hpair : conflict? items with
  | some pair => exact conflictReports_of_pair h defaults hpair
  | none =>
    have hcompatible := (conflict?_eq_none items).1 hpair
    rw [← lastNamed_isSome, ← isSome_items h countsAs_mode] at hcompatible
    rw [conflictReports_eq, filled_withDependencies, fresh, Bool.false_or]
    refine if_neg fun hreported => ?_
    obtain ⟨hmode, hallows⟩ := Bool.and_eq_true_iff.1 hreported
    cases htype : lastNamed typeNames items with
    | some type =>
      rw [(filled_allows h defaults htype).2 (hcompatible hmode type htype)] at hallows
      cases hallows
    | none =>
      -- Without an output type the mode says what is written, and both modes are fine.
      have hnone : m.last? [.outputGroup] = none := by
        have hlast := last?_items h countsAs_type
        rwa [htype, Option.map_none, Option.map_eq_none_iff] at hlast
      obtain ⟨a, ha⟩ := Option.isSome_iff_exists.1 hmode
      rw [filled_outputType, hnone, ha, Option.bind_none, Option.none_or, Option.map_some, Option.getD_some] at hallows
      by_cases hid : a.id = .dependencyOnly
      · rw [if_pos hid] at hallows
        cases hallows
      · rw [if_neg hid] at hallows
        cases hallows

omit h in
theorem ofWord?_isSome (word : Text) :
    (BitcodeStorage.ofWord? word).isSome = true ↔ word = "ar" ∨ word = "jc" := by
  unfold BitcodeStorage.ofWord?
  rw [List.find?_isSome]
  constructor
  · rintro ⟨place, -, hword⟩
    cases place with
    | apkResource => exact .inl (of_decide_eq_true hword).symm
    | javaCode => exact .inr (of_decide_eq_true hword).symm
  · rintro (rfl | rfl)
    · exact ⟨.apkResource, List.mem_cons_self, decide_eq_true rfl⟩
    · exact ⟨.javaCode, List.mem_cons_of_mem _ List.mem_cons_self, decide_eq_true rfl⟩

theorem storageReports_items :
    m.storageReports = (badPlace? items).toList.map fun place =>
      .of .invalidValue [.text "-bitcode-storage", .text place] := by
  have hname : standard.nameOf .bitcodeStorage = "-bitcode-storage" := rfl
  unfold Matched.storageReports badPlace?
  rw [lastValue_items h countsAs_place, hname]
  cases lastValueNamed placeNames items with
  | none => rfl
  | some place =>
    rw [Option.getD_some, Option.filter_some]
    by_cases hgood : place = [] ∨ place = "ar" ∨ place = "jc"
    · have hreport : (place = [] || (BitcodeStorage.ofWord? place).isSome) = true := by
        rwa [Bool.or_eq_true, decide_eq_true_eq, ofWord?_isSome]
      rw [if_pos hreport, if_neg (by simpa [or_iff_not_imp_left] using hgood)]
      rfl
    · have hreport : ¬ (place = [] || (BitcodeStorage.ofWord? place).isSome) = true := by
        rwa [Bool.or_eq_true, decide_eq_true_eq, ofWord?_isSome]
      rw [if_neg hreport, if_pos (by simpa using hgood)]
      rfl

/-- **What the last level is read as.** -/
theorem level_cases :
    (lastNamed levelNames items = none ∧ m.lastInteger .targetApi = .absent) ∨
    (∃ level a, lastNamed levelNames items = some level ∧ Decimal.isInteger level.value = false ∧
      m.lastInteger .targetApi = .malformed a ∧ a.value = level.value ∧ a.asText = level.written) ∨
    (∃ level, lastNamed levelNames items = some level ∧ Decimal.isInteger level.value = true ∧
      (Decimal.split level.value).2.length ≤ Decimal.digitLimit ∧
      m.lastInteger .targetApi = .integer (Decimal.denoted level.value)) ∨
    ∃ level e, lastNamed levelNames items = some level ∧ Decimal.isInteger level.value = true ∧
      Decimal.digitLimit < (Decimal.split level.value).2.length ∧ m.lastInteger .targetApi = .tooLong e := by
  unfold Matched.lastInteger
  rcases last?_cases h countsAs_level with ⟨hm, hi⟩ | ⟨a, level, hm, hi, hvalue, htext⟩ <;> rw [hm]
  · exact .inl ⟨hi, rfl⟩
  dsimp only
  rw [hvalue]
  cases hinteger : Decimal.isInteger level.value with
  | false => exact .inr (.inl ⟨level, a, hi, hinteger, rfl, hvalue, htext⟩)
  | true =>
    unfold Decimal.read
    by_cases hlong : Decimal.digitLimit < (Decimal.split level.value).2.length
    · exact .inr (.inr (.inr ⟨level, _, hi, hinteger, hlong, by rw [if_pos hlong]; rfl⟩))
    · exact .inr (.inr (.inl ⟨level, hi, hinteger, Nat.not_lt.1 hlong, by rw [if_neg hlong]; rfl⟩))

theorem levelReports_items :
    m.levelReports = (badLevel? items).toList.map fun level =>
      .of .invalidInteger [.text level.written, .text level.value] := by
  unfold Matched.levelReports badLevel?
  rcases level_cases h with ⟨hi, hread⟩ | ⟨level, a, hi, hinteger, hread, hvalue, htext⟩ |
    ⟨level, hi, hinteger, -, hread⟩ | ⟨level, e, hi, hinteger, -, hread⟩ <;> rw [hi, hread]
  · rfl
  · simp [hinteger, hvalue, htext, Option.filter_some]
  · simp [hinteger, Option.filter_some]
  · simp [hinteger, Option.filter_some]

end

theorem ofMatched_reports (defaults : Settings) (m : Matched) : (Resolution.ofMatched defaults m).reports =
    m.missingReports ++ m.unknownReports ++ m.conflictReports (defaults.filled m) ++ m.storageReports ++
      m.levelReports := by
  unfold Resolution.ofMatched
  cases m.lastInteger .targetApi <;> rfl

theorem ofMatched_inputs (defaults : Settings) {m : Matched} (h : ∀ e, m.lastInteger .targetApi ≠ .tooLong e) :
    (Resolution.ofMatched defaults m).inputs = .ok ((m.filtered [.input]).map (·.value)) := by
  unfold Resolution.ofMatched
  cases hlevel : m.lastInteger .targetApi with
  | tooLong e => exact absurd hlevel (h e)
  | _ => rfl

/-- A level with few enough digits can be resolved, whatever it is. -/
theorem level_not_tooLong {m : Matched} {items : List Item} (h : m.args.map Arg.unplaced = items.map Item.arg)
    (short : ∀ level ∈ lastValueNamed levelNames items, (Decimal.split level).2.length ≤ Decimal.digitLimit) :
    ∀ e, m.lastInteger .targetApi ≠ .tooLong e := by
  rcases level_cases h with ⟨-, hread⟩ | ⟨level, a, -, -, hread, -⟩ | ⟨level, -, -, -, hread⟩ |
    ⟨level, e, hi, -, hlong, -⟩
  · rw [hread]
    exact nofun
  · rw [hread]
    exact nofun
  · rw [hread]
    exact nofun
  · exact absurd (short level.value (Option.map_eq_some_iff.2 ⟨level, hi, rfl⟩)) (Nat.not_le.2 hlong)

theorem said_nil {items : List Item} {last : Option Text} (h : Said [] items last) : items = [] ∧ last = none := by
  obtain ⟨hitems, hlast⟩ := List.append_eq_nil_iff.1 h.tokens_eq.symm
  refine ⟨?_, Option.toList_eq_nil_iff.1 hlast⟩
  cases items with
  | nil => rfl
  | cons item items =>
    have htokens := List.flatMap_eq_nil_iff.1 hitems item List.mem_cons_self
    cases item <;> cases htokens

/-- What is reported of a command line that has been read. -/
theorem ofMatched_problemsAround (defaults : Settings) {m : Matched} {items : List Item} {last : Option Text}
    (htokens : m.tokens = items.flatMap Item.tokens ++ last.toList)
    (hargs : m.args.map Arg.unplaced = items.map Item.arg)
    (hshortage : m.shortage = last.map fun _ => ⟨(items.flatMap Item.tokens).length, 1⟩) :
    (Resolution.ofMatched defaults m).reports =
      problemsAround (m.conflictReports (defaults.filled m)) items last := by
  rw [ofMatched_reports, missingReports_items htokens hshortage, unknownReports_items hargs, storageReports_items hargs,
    levelReports_items hargs]
  rfl

/-- **What is reported of a command line**, wherever the settings come from: its problems, and that a mode and an output
type do not go together even if only one of them is on the command line. -/
theorem resolve_reports (defaults : Settings) {argv : List Text} {items : List Item} {last : Option Text}
    (hsaid : Said argv.tail items last) :
    ∃ conflict, (resolve defaults argv).reports = problemsAround conflict items last ∧
      (∀ p ∈ conflict, p.id = .notAllowedWith) ∧
      ∀ pair ∈ conflict? items, .of .notAllowedWith [.text pair.1.written, .text pair.2.written] ∈ conflict := by
  rcases resolve_cases defaults argv with ⟨htail, h⟩ | ⟨m, hm, h⟩
  · rw [htail] at hsaid
    obtain ⟨rfl, rfl⟩ := said_nil hsaid
    rw [h]
    exact ⟨[], rfl, nofun, nofun⟩
  · obtain ⟨m', hm', htokens, hargs, hshortage⟩ := read_of_said hsaid
    obtain rfl : m' = m := Except.ok.inj (hm'.symm.trans hm)
    refine ⟨m'.conflictReports (defaults.filled m'), ?_, ?_, ?_⟩
    · rw [h, ofMatched_problemsAround defaults (htokens.trans hsaid.tokens_eq) hargs hshortage]
    · rw [conflictReports_eq]
      split
      · intro p hp
        rw [List.mem_singleton.1 hp]
        rfl
      · exact nofun
    · rintro ⟨mode, type⟩ hpair
      rw [conflictReports_of_pair hargs defaults hpair]
      exact List.mem_cons_self

/-- **What is reported of a command line are its problems**, all of them and nothing else, in order.  So it is accepted
exactly if it has none; and with a level of few enough digits resolving it gives its inputs, whatever the problems. -/
theorem resolve_problems {defaults : Settings} (fresh : defaults.withDependencies = false) (argv : List Text) :
    (∃ items last, Said argv.tail items last) ∧ ∀ items last, Said argv.tail items last →
      (resolve defaults argv).reports = problems items last ∧
      ((resolve defaults argv).reports = [] ↔ Accepted items last) ∧
      ((∀ level ∈ lastValueNamed levelNames items, (Decimal.split level).2.length ≤ Decimal.digitLimit) →
        (resolve defaults argv).inputs = .ok (items.filterMap Item.input?)) := by
  refine ⟨exists_said _, fun items last hsaid => ?_⟩
  rw [← problems_eq_nil]
  rcases resolve_cases defaults argv with ⟨htail, h⟩ | ⟨m, hm, h⟩
  · rw [htail] at hsaid
    obtain ⟨rfl, rfl⟩ := said_nil hsaid
    rw [h]
    exact ⟨rfl, Iff.rfl, fun _ => rfl⟩
  · obtain ⟨m', hm', htokens, hargs, hshortage⟩ := read_of_said hsaid
    obtain rfl : m' = m := Except.ok.inj (hm'.symm.trans hm)
    have hreports : (resolve defaults argv).reports = problems items last := by
      rw [h, ofMatched_reports, missingReports_items (htokens.trans hsaid.tokens_eq) hshortage,
        unknownReports_items hargs, conflictReports_items hargs fresh, storageReports_items hargs,
        levelReports_items hargs]
      rfl
    refine ⟨hreports, by rw [hreports], fun short => ?_⟩
    rw [h, ofMatched_inputs defaults (level_not_tooLong hargs short), inputs_items hargs]

/-- A command line with every problem there is. -/
def troubledLine : List Text :=
  ["rscc", "-bogus", "-o", "-M", "-MD", "-bitcode-storage=", "-s", "xx", "-S", "a.rs", "-Iinc", "-target-api", "+1", "-p"]

theorem resolve_problems_troubled : ({} : Settings).withDependencies = false ∧
    (∃ items last, Said troubledLine.tail items last) ∧ ∀ items last, Said troubledLine.tail items last →
      (resolve {} troubledLine).reports = problems items last ∧
      ((resolve {} troubledLine).reports = [] ↔ Accepted items last) ∧
      ((∀ level ∈ lastValueNamed levelNames items, (Decimal.split level).2.length ≤ Decimal.digitLimit) →
        (resolve {} troubledLine).inputs = .ok (items.filterMap Item.input?)) :=
  ⟨rfl, resolve_problems rfl troubledLine⟩

end ScriptDriver
