import ScriptDriver.Proofs.Settings.Topic
/-!
# Respelling — spellings that mean the same

Some options have a second spelling.  A command line in which some of them are written the other way (`Respelled`) has
items of the same meaning, that is, with the same options and values (`Respelled.said`).  Resolving asks for nothing
else of an argument, except to show it in a report (`ofMatched_of_alike`), so both command lines come to the same
settings, the same inputs and the same kinds of problems.
-/
namespace ScriptDriver.CommandLine

/-! ## What resolving asks for -/

/-- **Command lines that mean the same**, however they are spelled. -/
structure Matched.Alike (m m' : Matched) : Prop where
  args : m.args.map Arg.meaning = m'.args.map Arg.meaning
  shortage : m.shortage.isSome = m'.shortage.isSome

section
variable {m m' : Matched} (h : m.Alike m')
include h

theorem filtered_alike (ids : List OptionId) :
    (m.filtered ids).map Arg.meaning = (m'.filtered ids).map Arg.meaning := by
  have hfilter := congrArg (List.filter fun p : Descriptor × List Text => (⟨p.1, p.1, 0, p.2⟩ : Arg).among ids) h.args
  rw [List.filter_map, List.filter_map] at hfilter
  exact hfilter

theorem last?_alike (ids : List OptionId) : (m.last? ids).map Arg.meaning = (m'.last? ids).map Arg.meaning := by
  unfold Matched.last?
  rw [← List.getLast?_map, filtered_alike h, List.getLast?_map]

theorem Matched.Alike.agree : m.Agree Arg.meaning m' :=
  ⟨fun t _ => filtered_alike h [t.id], fun t => last?_alike h [t.id]⟩

omit h in
theorem missingReports_ids (m : Matched) :
    m.missingReports.map (·.id) = if m.shortage.isSome then [.missingArgument] else [] := by
  unfold Matched.missingReports
  cases m.shortage <;> rfl

theorem unknownReports_alike : m.unknownReports.map (·.id) = m'.unknownReports.map (·.id) := by
  have hlength := congrArg List.length (filtered_alike h [.unknown])
  rw [List.length_map, List.length_map] at hlength
  simp only [Matched.unknownReports, List.map_map, Function.comp_def, Diagnostic.of, List.map_const', hlength]

omit h in
theorem conflictReports_ids (m : Matched) (s : Settings) : (m.conflictReports s).map (·.id) =
    if s.withDependencies && !s.outputType.allowsDependencies then [.notAllowedWith] else [] := by
  unfold Matched.conflictReports
  split <;> rfl

theorem levelReports_alike : m.levelReports.map (·.id) = m'.levelReports.map (·.id) := by
  unfold Matched.levelReports
  rcases lastInteger_congr .targetApi (h.agree.last .level) with hl | ⟨b, b', hb, hb'⟩
  · rw [hl]
  · rw [hb, hb']
    rfl

/-- **Command lines that mean the same come to the same**: settings, inputs and kinds of problems. -/
theorem ofMatched_of_alike (defaults : Settings) :
    (Resolution.ofMatched defaults m).settings = (Resolution.ofMatched defaults m').settings ∧
    (Resolution.ofMatched defaults m).inputs = (Resolution.ofMatched defaults m').inputs ∧
    (Resolution.ofMatched defaults m).reports.map (·.id) = (Resolution.ofMatched defaults m').reports.map (·.id) := by
  obtain ⟨hsettings, hinputs⟩ := ofMatched_agree h.agree defaults
  refine ⟨hsettings, hinputs, ?_⟩
  simp only [ofMatched_reports, List.map_append, missingReports_ids, h.shortage, unknownReports_alike h,
    conflictReports_ids, filled_agree h.agree, storageReports_agree h.agree, levelReports_alike h]

end

/-! ## Second spellings -/

/-- The second spellings of options without a value and of options with one, each with the first spelling. -/
def flagAliases : List (Text × Text) := [("-S", "-emit-asm"), ("--help", "-help"), ("--version", "-version")]
def valueAliases : List (Text × Text) :=
  [("-p", "-java-reflection-path-base"), ("-j", "-java-reflection-package-name"), ("-s", "-bitcode-storage"),
    ("-d", "-output-dep-dir"), ("-a", "-additional-dep-target")]

/-- The option whose value can be in one token with a second spelling. -/
def placeName : Text := "-bitcode-storage"

/-- **A command line with some second spellings replaced by the first ones**, where they stand as options.  What stands
as a value stays as it is. -/
inductive Respelled : List Text → List Text → Prop
  | nil : Respelled [] []
  | same (item : Item) {tokens tokens' : List Text} :
    Respelled tokens tokens' → Respelled (item.tokens ++ tokens) (item.tokens ++ tokens')
  | flag {second first : Text} {tokens tokens' : List Text} :
    (second, first) ∈ flagAliases → Respelled tokens tokens' → Respelled (second :: tokens) (first :: tokens')
  | valued {second first : Text} (value : Text) {tokens tokens' : List Text} :
    (second, first) ∈ valueAliases → Respelled tokens tokens' →
      Respelled (second :: value :: tokens) (first :: value :: tokens')
  | storage (place : Text) {tokens tokens' : List Text} :
    Respelled tokens tokens' → Respelled ((storageName ++ place) :: tokens) (placeName :: place :: tokens')
  /-- An option at the end without its value. -/
  | sameLast {name : Text} : name ∈ valueNames → Respelled [name] [name]
  | last {second first : Text} : (second, first) ∈ valueAliases → Respelled [second] [first]

/-- The names of the rows that satisfy `p` and stand for another row, each with the name of that row. -/
def aliasesWhere (p : Descriptor → Bool) : List (Text × Text) :=
  (standard.rows.filter fun d => d.standsFor.isSome && p d).map fun d => (d.name, (standardOption d).name)

theorem flagAliases_eq : flagAliases = aliasesWhere fun d => d.kind = .flag := rfl

theorem valueAliases_eq : valueAliases = aliasesWhere fun d => d.kind = .separate := rfl

theorem storageAlias_eq : [(storageName, placeName)] = aliasesWhere fun d => d.kind = .joined := rfl

/-- A row that another row stands for stands for no further row, and takes as many values. -/
theorem standard_aliases : ∀ d ∈ standard.rows, d.standsFor.isSome = true → (standardOption d).standsFor = none ∧
    (d.kind = .flag ∧ (standardOption d).kind = .flag ∨
      (d.kind = .separate ∨ d.kind = .joined) ∧ (standardOption d).kind = .separate) := by decide

theorem standardOption_mem {d : Descriptor} (hd : d ∈ standard.rows) : standardOption d ∈ standard.rows := by
  obtain ⟨o, ho, h⟩ := OptionTable.resolve_of_closed standard_closed hd
  rw [resolve_standard hd] at h
  exact Except.ok.inj h ▸ ho

/-- Both spellings of an option name a row, and mean the same with the same values. -/
theorem alias_rows {p : Descriptor → Bool} {second first : Text} (h : (second, first) ∈ aliasesWhere p) :
    ∃ d ∈ standard.rows, p d = true ∧ d.standsFor.isSome = true ∧ d.name = second ∧ (standardOption d).name = first ∧
      ∀ values, (namedArg second values).meaning = (namedArg first values).meaning := by
  obtain ⟨d, hd, hpair⟩ := List.mem_map.1 h
  obtain ⟨hd, hp⟩ := List.mem_filter.1 hd
  rw [Bool.and_eq_true] at hp
  cases hpair
  have hnone := (standard_aliases d hd hp.1).1
  have hoption : standardOption (standardOption d) = standardOption d := by
    rw [standardOption.eq_def (standardOption d), hnone]
  refine ⟨d, hd, hp.2, hp.1, rfl, rfl, fun values => ?_⟩
  simp only [namedArg, rowArg, Arg.meaning, rowNamed_name hd, rowNamed_name (standardOption_mem hd), hoption]

theorem flagAlias {second first : Text} (h : (second, first) ∈ flagAliases) :
    second ∈ flagNames ∧ first ∈ flagNames ∧ (namedArg second []).meaning = (namedArg first []).meaning := by
  rw [flagAliases_eq] at h
  obtain ⟨d, hd, hk, hsome, rfl, rfl, hmeaning⟩ := alias_rows h
  have hk' : d.kind = .flag := of_decide_eq_true hk
  have hfirst : (standardOption d).kind = .flag := by
    have hkinds := (standard_aliases d hd hsome).2
    simpa [hk'] using hkinds
  refine ⟨?_, ?_, hmeaning []⟩
  · rw [flagNames_eq, mem_namesWhere hd]
    exact ⟨by simp [Descriptor.isMatchable, hk'], hk⟩
  · rw [flagNames_eq, mem_namesWhere (standardOption_mem hd)]
    exact ⟨by simp [Descriptor.isMatchable, hfirst], decide_eq_true hfirst⟩

theorem first_mem_valueNames {d : Descriptor} (hd : d ∈ standard.rows) (hsome : d.standsFor.isSome = true)
    (hk : d.kind = .separate ∨ d.kind = .joined) : (standardOption d).name ∈ valueNames := by
  have hfirst : (standardOption d).kind = .separate := by
    rcases (standard_aliases d hd hsome).2 with ⟨hflag, -⟩ | ⟨-, h⟩
    · rcases hk with hk | hk <;> rw [hk] at hflag <;> cases hflag
    · exact h
  rw [valueNames_eq, mem_namesWhere (standardOption_mem hd)]
  exact ⟨by simp [Descriptor.isMatchable, hfirst], by simp [hfirst]⟩

theorem valueAlias {second first : Text} (h : (second, first) ∈ valueAliases) :
    second ∈ valueNames ∧ first ∈ valueNames ∧
      ∀ value, (namedArg second [value]).meaning = (namedArg first [value]).meaning := by
  rw [valueAliases_eq] at h
  obtain ⟨d, hd, hk, hsome, rfl, rfl, hmeaning⟩ := alias_rows h
  have hk' : d.kind = .separate := of_decide_eq_true hk
  refine ⟨?_, first_mem_valueNames hd hsome (.inl hk'), fun value => hmeaning [value]⟩
  rw [valueNames_eq, mem_namesWhere hd]
  exact ⟨by simp [Descriptor.isMatchable, hk'], by simp [hk']⟩

theorem storageAlias : placeName ∈ valueNames ∧
    ∀ place, (namedArg storageName [place]).meaning = (namedArg placeName [place]).meaning := by
  have h := List.mem_singleton_self (storageName, placeName)
  rw [storageAlias_eq] at h
  obtain ⟨d, hd, hk, hsome, -, hname, hmeaning⟩ := alias_rows h
  exact ⟨hname ▸ first_mem_valueNames hd hsome (.inr (of_decide_eq_true hk)), fun place => hmeaning [place]⟩

/-! ## Command lines respelled -/

/-- Command lines said in items of the same meaning, both or neither with an option at the end that lacks its value. -/
def SaidAlike (tokens tokens' : List Text) : Prop :=
  ∃ items items' last last', Said tokens items last ∧ Said tokens' items' last' ∧
    items.map (·.arg.meaning) = items'.map (·.arg.meaning) ∧ last.isSome = last'.isSome

theorem SaidAlike.cons (item item' : Item) (heq : item.arg.meaning = item'.arg.meaning) {tokens tokens' : List Text}
    (h : SaidAlike tokens tokens') : SaidAlike (item.tokens ++ tokens) (item'.tokens ++ tokens') := by
  obtain ⟨items, items', last, last', hsaid, hsaid', hmeaning, hlast⟩ := h
  refine ⟨item :: items, item' :: items', last, last', hsaid.cons item, hsaid'.cons item', ?_, hlast⟩
  rw [List.map_cons, List.map_cons, heq, hmeaning]

theorem SaidAlike.last {name name' : Text} (hname : name ∈ valueNames) (hname' : name' ∈ valueNames) :
    SaidAlike [name] [name'] := by
  refine ⟨[], [], some name, some name', ⟨?_, rfl⟩, ⟨?_, rfl⟩, rfl, rfl⟩
  · simpa using hname
  · simpa using hname'

/-- **A command line respelled is said in items of the same meaning.** -/
theorem Respelled.said {tokens tokens' : List Text} (h : Respelled tokens tokens') : SaidAlike tokens tokens' := by
  induction h with
  | nil => exact ⟨[], [], none, none, .nil, .nil, rfl, rfl⟩
  | same item _ ih => exact ih.cons item item rfl
  | flag hmem _ ih =>
    obtain ⟨hsecond, hfirst, heq⟩ := flagAlias hmem
    exact ih.cons (.flag _ hsecond) (.flag _ hfirst) heq
  | valued value hmem _ ih =>
    obtain ⟨hsecond, hfirst, heq⟩ := valueAlias hmem
    exact ih.cons (.valued _ hsecond value) (.valued _ hfirst value) (heq value)
  | storage place _ ih =>
    obtain ⟨hfirst, heq⟩ := storageAlias
    exact ih.cons (.storage place) (.valued _ hfirst place) (heq place)
  | sameLast hname => exact .last hname hname
  | last hmem =>
    obtain ⟨hsecond, hfirst, -⟩ := valueAlias hmem
    exact .last hsecond hfirst

/-- Nothing is said on both command lines, or both are read and mean the same. -/
theorem SaidAlike.read {tokens tokens' : List Text} (h : SaidAlike tokens tokens') :
    (tokens = [] ↔ tokens' = []) ∧
      ∃ m m', standard.read tokens = .ok m ∧ standard.read tokens' = .ok m' ∧ m.Alike m' := by
  obtain ⟨items, items', last, last', hsaid, hsaid', hmeaning, hlast⟩ := h
  have hlength : items.length = items'.length := by simpa using congrArg List.length hmeaning
  constructor
  · constructor
    · rintro rfl
      obtain ⟨rfl, rfl⟩ := said_nil hsaid
      obtain rfl := List.eq_nil_of_length_eq_zero hlength.symm
      obtain rfl : last' = none := by simpa using hlast.symm
      exact hsaid'.tokens_eq
    · rintro rfl
      obtain ⟨rfl, rfl⟩ := said_nil hsaid'
      obtain rfl := List.eq_nil_of_length_eq_zero hlength
      obtain rfl : last = none := by simpa using hlast
      exact hsaid.tokens_eq
  · obtain ⟨m, hm, -, hargs, hshortage⟩ := read_of_said hsaid
    obtain ⟨m', hm', -, hargs', hshortage'⟩ := read_of_said hsaid'
    refine ⟨m, m', hm, hm', ?_, ?_⟩
    · calc m.args.map Arg.meaning = (m.args.map Arg.unplaced).map Arg.meaning := by rw [List.map_map]; rfl
        _ = (m'.args.map Arg.unplaced).map Arg.meaning := by
          rw [hargs, hargs', List.map_map, List.map_map]
          exact hmeaning
        _ = m'.args.map Arg.meaning := by rw [List.map_map]; rfl
    · rw [hshortage, hshortage', Option.isSome_map, Option.isSome_map, hlast]

end CommandLine

open CommandLine

/-- **A command line is resolved as its items are**, whatever tokens they are said in. -/
theorem resolve_of_said (defaults : Settings) (argv : List Text) (items : List Item) (hsome : argv.tail ≠ [])
    (h : Said argv.tail items none) :
    (resolve defaults argv).settings = (Resolution.ofMatched defaults ⟨[], items.map Item.arg, none⟩).settings ∧
    (resolve defaults argv).inputs = (Resolution.ofMatched defaults ⟨[], items.map Item.arg, none⟩).inputs ∧
    (resolve defaults argv).reports.map (·.id) =
      (Resolution.ofMatched defaults ⟨[], items.map Item.arg, none⟩).reports.map (·.id) := by
  obtain ⟨m, hm, -, hargs, hshortage⟩ := read_of_said h
  rw [resolve_of_read defaults hsome hm]
  refine ofMatched_of_alike ⟨?_, by rw [hshortage]; rfl⟩ defaults
  rw [← hargs, List.map_map]
  rfl

/-- **Second spellings behave as the first ones**: a command line respelled comes to the same settings and inputs, and
the same kinds of problems are reported in the same order. -/
theorem resolve_respelled (defaults : Settings) {argv argv' : List Text} (h : Respelled argv.tail argv'.tail) :
    (resolve defaults argv).settings = (resolve defaults argv').settings ∧
    (resolve defaults argv).inputs = (resolve defaults argv').inputs ∧
    (resolve defaults argv).reports.map (·.id) = (resolve defaults argv').reports.map (·.id) := by
  obtain ⟨hnil, m, m', hm, hm', halike⟩ := h.said.read
  by_cases ht : argv.tail = []
  · rw [resolve_of_tail_nil defaults ht, resolve_of_tail_nil defaults (hnil.1 ht)]
    exact ⟨rfl, rfl, rfl⟩
  · rw [resolve_of_read defaults ht hm, resolve_of_read defaults (mt hnil.2 ht) hm']
    exact ofMatched_of_alike halike defaults

/-- A command line with second spellings as options and as values, and the same with some of them replaced. -/
def shortLine : List Text := ["rscc", "-S", "-p", "-S", "-bitcode-storage=", "-o", "-d", "-a", "x", "a.rs", "--help", "-j"]
def longLine : List Text :=
  ["rscc", "-emit-asm", "-java-reflection-path-base", "-S", "-bitcode-storage", "", "-o", "-d", "-a", "x", "a.rs",
    "-help", "-java-reflection-package-name"]

theorem shortLine_respelled : Respelled shortLine.tail longLine.tail := by
  have houtput : ("-o" : Text) ∈ valueNames := .tail _ (.head _)
  have htarget : ("-a" : Text) ∈ valueNames := List.mem_of_elem_eq_true rfl
  have hinput : isInput "a.rs" = true := rfl
  exact .flag (.head _) (.valued "-S" (.head _) (.storage "" (.same (.valued "-o" houtput "-d")
    (.same (.valued "-a" htarget "x") (.same (.input "a.rs" hinput) (.flag (.tail _ (.head _))
      (.last (.tail _ (.head _)))))))))

theorem resolve_respelled_short : Respelled shortLine.tail longLine.tail ∧
    (resolve {} shortLine).settings = (resolve {} longLine).settings ∧
    (resolve {} shortLine).inputs = (resolve {} longLine).inputs ∧
    (resolve {} shortLine).reports.map (·.id) = (resolve {} longLine).reports.map (·.id) :=
  ⟨shortLine_respelled, resolve_respelled {} shortLine_respelled⟩

end ScriptDriver
