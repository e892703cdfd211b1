import ScriptDriver.Proofs.Backend.Runs
import ScriptDriver.Proofs.Driver.Handover
/-!
# IncludePaths — the include paths in a command, read as the driver reads its own

The command for a script says each include path in one token with its option.  The row of the standard table that this
option has reads them back, and stops before the flags, the output and the input, unless one of them is empty: its token
is the name of the option alone, and takes the token after it for its value (`command_includes`).  An empty include path
comes from a command line that has one as a token of its own.
-/
namespace ScriptDriver

namespace CommandLine

/-! ## Reading a row's values off a command line -/

/-- The values of the tokens at the beginning that a row takes, and the tokens after them. -/
def Descriptor.gather (d : Descriptor) (tokens : List Text) : List Text × List Text :=
  match tokens with
  | [] => ([], [])
  | token :: following =>
    if d.name.isPrefixOf token then
      match d.fit token following with
      | .taken values n => (values ++ (d.gather (following.drop n)).1, (d.gather (following.drop n)).2)
      | _ => ([], token :: following)
    else ([], token :: following)
termination_by tokens.length
decreasing_by all_goals
  simp only [List.length_drop, List.length_cons]
  omega

def includeRow : Descriptor := rowNamed includeName

theorem includeRow_name : includeRow.name = includeName := found_include.1.name_eq

theorem includeRow_kind : includeRow.kind = .joinedOrSeparate := found_include.2

variable {token value : Text} {following : List Text}

theorem gather_other (h : ¬ includeName <+: token) : includeRow.gather (token :: following) = ([], token :: following) := by
  rw [Descriptor.gather, if_neg]
  rwa [includeRow_name, List.isPrefixOf_iff_prefix]

theorem gather_attached (some : value ≠ []) : includeRow.gather ((includeName ++ value) :: following) =
    (value :: (includeRow.gather following).1, (includeRow.gather following).2) := by
  have hfit := fit_attached value following (.inr ⟨includeRow_kind, some⟩)
  rw [includeRow_name] at hfit
  rw [Descriptor.gather, if_pos, hfit]
  · rfl
  · rw [includeRow_name, List.isPrefixOf_iff_prefix]
    exact List.prefix_append _ _

theorem gather_bare : includeRow.gather (includeName :: token :: following) =
    (token :: (includeRow.gather following).1, (includeRow.gather following).2) := by
  have hfit := fit_next (token :: following) (.inr includeRow_kind)
  rw [includeRow_name] at hfit
  rw [Descriptor.gather, if_pos, hfit]
  · rfl
  · rw [includeRow_name, List.isPrefixOf_iff_prefix]

end CommandLine

namespace Backend

open CommandLine

/-! ## A command around its include paths -/

/-- Every command has a flag and one more token before its output. -/
theorem backArgs_opening {s : Script} (h : (flags? s.outputType).isSome) : ∃ flag next rest,
    backArgs s = flag :: next :: rest ∧ flag ≠ [] ∧ ¬ includeName <+: flag ∧ ¬ includeName <+: next := by
  unfold backArgs
  cases htype : s.outputType <;> rw [htype] at h
  case dependency => cases h
  all_goals exact ⟨_, _, _, rfl, by decide, by decide, by decide⟩

/-! ## Reading the include paths back -/

theorem gather_includes {back : List Text} (hback : includeRow.gather back = ([], back)) :
    ∀ {paths : List Text}, [] ∉ paths → includeRow.gather (includeArgs paths ++ back) = (paths, back)
  | [], _ => hback
  | path :: paths, h => by
    rw [List.mem_cons, not_or] at h
    obtain ⟨hpath, hpaths⟩ := h
    rw [includeArgs, List.map_cons, List.cons_append]
    refine (gather_attached (Ne.symm hpath)).trans ?_
    have ih := gather_includes hback hpaths
    rw [includeArgs] at ih
    rw [ih]

/-- No empty value is read off a command: the option alone takes the next token, which is never empty. -/
theorem gather_filled {flag next : Text} {rest : List Text} (some : flag ≠ []) (hflag : ¬ includeName <+: flag)
    (hnext : ¬ includeName <+: next) : ∀ paths : List Text,
      [] ∉ (includeRow.gather (includeArgs paths ++ flag :: next :: rest)).1
  | [] => by
    rw [includeArgs, List.map_nil, List.nil_append, gather_other hflag]
    exact List.not_mem_nil
  | [[]] => by
    show [] ∉ (includeRow.gather (includeName :: flag :: next :: rest)).1
    rw [gather_bare, gather_other hnext]
    simpa using some.symm
  | [] :: path :: paths => by
    show [] ∉ (includeRow.gather (includeName :: (includeName ++ path) :: (includeArgs paths ++ flag :: next :: rest))).1
    rw [gather_bare, List.mem_cons, not_or]
    exact ⟨nofun, gather_filled some hflag hnext paths⟩
  | (g :: path) :: paths => by
    show [] ∉ (includeRow.gather ((includeName ++ g :: path) :: (includeArgs paths ++ flag :: next :: rest))).1
    rw [gather_attached (List.cons_ne_nil g path), List.mem_cons, not_or]
    exact ⟨nofun, gather_filled some hflag hnext paths⟩

/-- **The include paths of a script are read back exactly if none is empty.** -/
theorem gather_eq_iff {s : Script} (h : (flags? s.outputType).isSome) :
    includeRow.gather (includeArgs s.includePaths ++ backArgs s) = (s.includePaths, backArgs s) ↔ [] ∉ s.includePaths := by
  obtain ⟨flag, next, rest, hback, some, hflag, hnext⟩ := backArgs_opening h
  constructor
  · intro hread
    have hfilled : [] ∉ (includeRow.gather (includeArgs s.includePaths ++ backArgs s)).1 := by
      rw [hback]
      exact gather_filled some hflag hnext s.includePaths
    rwa [hread] at hfilled
  · intro hpaths
    refine gather_includes ?_ hpaths
    rw [hback, gather_other hflag]

end Backend

/-! ## The include paths of a command line -/

namespace CommandLine

theorem arg_values (item : Item) : item.arg.values = item.values := by cases item <;> rfl

theorem allValues_items {m : Matched} {items : List Item} (h : m.args.map Arg.unplaced = items.map Item.arg) (t : Topic) :
    m.allValues t.id = (items.filter (·.isAbout t)).flatMap Item.values := by
  have hmap := congrArg (List.flatMap Arg.values) (filtered_topic h t)
  rw [List.flatMap_map, List.flatMap_map, funext arg_values] at hmap
  exact hmap

/-- All include paths that are said, in order. -/
def saidPaths (items : List Item) : List Text := (items.filter (·.isAbout .includeDir)).flatMap Item.values

/-- **An empty include path is said only as a token of its own.** -/
theorem empty_mem_saidPaths {items : List Item} :
    [] ∈ saidPaths items ↔ ∃ item ∈ items, item.tokens = [includeName, []] := by
  simp only [saidPaths, List.mem_flatMap, List.mem_filter, and_assoc]
  refine exists_congr fun item => and_congr_right fun _ => ?_
  cases item with
  | input token | unknown token => simp [Item.isAbout, Item.tokens]
  | flag name listed => simp [Item.values, Item.tokens]
  | valued name listed value =>
    rw [isAbout_of_name rfl, List.contains_iff_mem]
    simp [Topic.names, Item.values, Item.tokens, includeName, eq_comm]
  | includeDir dir some => simp [Item.values, Item.tokens, some.symm]
  | storage place =>
    have hother : storageName ∉ Topic.includeDir.names := by decide
    rw [isAbout_of_name rfl, List.contains_iff_mem]
    simp [hother, Item.tokens]

end CommandLine

open CommandLine

theorem resolve_includePaths {defaults : Settings} (fresh : defaults.includePaths = []) {argv : List Text}
    {items : List Item} {last : Option Text} (said : Said argv.tail items last) :
    (resolve defaults argv).settings.includePaths = saidPaths items := by
  rcases resolve_cases defaults argv with ⟨htail, h⟩ | ⟨m, hm, h⟩
  · rw [htail] at said
    obtain ⟨rfl, rfl⟩ := said_nil said
    rw [h]
    exact fresh
  · obtain ⟨m', hm', -, hargs, -⟩ := read_of_said said
    obtain rfl : m' = m := Except.ok.inj (hm'.symm.trans hm)
    obtain ⟨n, hn⟩ := ofMatched_settings defaults m'
    rw [h, hn]
    exact allValues_items hargs .includeDir

namespace Backend

/-! ## Reading all of a command -/

/-- Include paths that are not empty, as items. -/
theorem exists_includeItems : ∀ {paths : List Text}, [] ∉ paths → ∃ items : List Item,
    items.flatMap Item.tokens = includeArgs paths ∧ items.flatMap Item.values = paths ∧
      items.map Item.written = paths.map (fun path => includeName ++ " " ++ path) ∧
      ∀ item ∈ items, item.isAbout .includeDir = true
  | [], _ => ⟨[], rfl, rfl, rfl, nofun⟩
  | path :: paths, h => by
    rw [List.mem_cons, not_or] at h
    obtain ⟨items, htokens, hvalues, hwritten, habout⟩ := exists_includeItems h.2
    refine ⟨.includeDir path (Ne.symm h.1) :: items, ?_, ?_, ?_, List.forall_mem_cons.2 ⟨rfl, habout⟩⟩
    · rw [List.flatMap_cons, htokens]
      rfl
    · rw [List.flatMap_cons, hvalues]
      rfl
    · rw [List.map_cons, hwritten]
      rfl

/-- **A script whose command is read back** from its include paths on: these, one output, one input and the flags between
them, and nothing else. -/
structure ReadBack (s : Script) (m : Matched) : Prop where
  includes : m.allValues .includeDir = s.includePaths
  output : m.allValues .outputDir = [s.output]
  input : m.allValues .input = [s.input]
  shown : m.args.map Arg.asText = s.includePaths.map (fun path => includeName ++ " " ++ path) ++
    (flags? s.outputType).getD [] ++ ["-o" ++ " " ++ s.output, s.input]
  complete : m.shortage = none

def bitcodeFlag : Item := .unknown "-c" ⟨rfl, by decide, by decide, by decide, by decide⟩
def checkFlag : Item := .unknown "-fsyntax-only" ⟨rfl, by decide, by decide, by decide, by decide⟩
theorem assembly_listed : ("-S" : Text) ∈ flagNames := by decide

theorem llvm_listed : ("-emit-llvm" : Text) ∈ flagNames := by decide

def assemblyFlag : Item := .flag "-S" assembly_listed
def llvmFlag : Item := .flag "-emit-llvm" llvm_listed

/-- The flags for an output type, as the items they look like. -/
def flagItems : OutputType → List Item
  | .bitcode => [bitcodeFlag, llvmFlag]
  | .assembly => [assemblyFlag]
  | .llvmAssembly => [assemblyFlag, llvmFlag]
  | .object => [bitcodeFlag]
  | .nothing => [checkFlag]
  | .dependency => []

theorem flagItems_tokens (type : OutputType) : (flagItems type).flatMap Item.tokens = (flags? type).getD [] := by
  cases type <;> rfl

theorem flagItems_written (type : OutputType) : (flagItems type).map Item.written = (flags? type).getD [] := by
  cases type <;> rfl

theorem flagItems_about (type : OutputType) : ∀ t ∈ [Topic.includeDir, .outputDir, .input],
    (flagItems type).filter (·.isAbout t) = [] := by
  cases type <;> decide

theorem filter_about {items : List Item} {s t : Topic} (h : ∀ item ∈ items, item.isAbout s = true) :
    items.filter (·.isAbout t) = if s = t then items else [] := by
  split
  · rename_i hst
    exact List.filter_eq_self.2 (hst ▸ h)
  · rename_i hst
    exact List.filter_eq_nil_iff.2 fun item hitem ht => hst (topic_unique (h item hitem) ht)

/-- **A command is read back** if no include path is empty and its input can be an input. -/
theorem exists_readBack {s : Script} (hpaths : [] ∉ s.includePaths) (plain : isInput s.input = true) :
    ∃ m, standard.read (includeArgs s.includePaths ++ backArgs s) = .ok m ∧ ReadBack s m := by
  obtain ⟨items, htokens, hvalues, hwritten, habout⟩ := exists_includeItems hpaths
  let ending : List Item := [.valued "-o" (by decide) s.output, .input s.input plain]
  have hflags := flagItems_about s.outputType
  have said : Said (includeArgs s.includePaths ++ backArgs s) (items ++ (flagItems s.outputType ++ ending)) none := by
    refine ⟨nofun, ?_⟩
    rw [List.flatMap_append, List.flatMap_append, htokens, flagItems_tokens, Option.toList_none, List.append_nil]
    rfl
  obtain ⟨m, hread, -, hargs, hshortage⟩ := read_of_said said
  have hvalues_about (t : Topic) (ht : t ∈ [Topic.includeDir, .outputDir, .input]) : m.allValues t.id =
      (if .includeDir = t then items else []).flatMap Item.values ++ (ending.filter (·.isAbout t)).flatMap Item.values := by
    rw [allValues_items hargs, List.filter_append, List.filter_append, filter_about habout, hflags t ht, List.nil_append,
      List.flatMap_append]
  refine ⟨m, hread, ?_⟩
  constructor
  case includes => exact (hvalues_about .includeDir (by simp)).trans ((List.append_nil _).trans hvalues)
  case output => exact hvalues_about .outputDir (by simp)
  case input => exact hvalues_about .input (by simp)
  case shown =>
    have hmap := congrArg (List.map Arg.asText) hargs
    rw [List.map_map, List.map_map] at hmap
    calc m.args.map Arg.asText
        = (items ++ (flagItems s.outputType ++ ending)).map (·.arg.asText) := hmap
      _ = (items ++ (flagItems s.outputType ++ ending)).map Item.written := by rw [funext written_item]
      _ = _ := by
        rw [List.map_append, List.map_append, hwritten, flagItems_written, List.append_assoc]
        rfl
  case complete => exact hshortage

/-! ## From the command line to the command -/

/-- The script that a batch has for an input. -/
def scriptFor (s : Settings) (inputs : List Text) (input : Text) : Script :=
  scriptOf (.of s inputs) (input, Output.primary s input)

/-- **What a command says about the include paths** that were said in `items`. -/
structure SaysIncludes (items : List Item) (opening : List Text) (s : Script) (command : List Text) : Prop where
  paths : s.includePaths = saidPaths items
  placed : command = frontArgs opening s ++ (includeArgs s.includePaths ++ backArgs s)
  gathered : includeRow.gather (includeArgs s.includePaths ++ backArgs s) = (s.includePaths, backArgs s) ↔
    ∀ item ∈ items, item.tokens ≠ [includeName, []]
  readBack : (∀ item ∈ items, item.tokens ≠ [includeName, []]) →
    ∃ m, standard.read (includeArgs s.includePaths ++ backArgs s) = .ok m ∧ ReadBack s m

/-- **The include paths of a command line are read back from every command** for its inputs exactly if no empty one is
said.  Then the standard table reads the rest of the command as well: nothing that follows is taken for a value. -/
theorem command_includes (t : Toolchain) {argv inputs : List Text} (resolved : (resolve t.settings argv).inputs = .ok inputs)
    {items : List Item} {last : Option Text} (said : Said argv.tail items last) {input : Text} (listed : input ∈ inputs)
    {c : Compiler} {here : File.Path} {command : List Text}
    (built : c.command here (scriptFor (resolve t.settings argv).settings inputs input) = .ok command) :
    SaysIncludes items (c.toolchain.backendCommand here ++ c.targetArgs)
      (scriptFor (resolve t.settings argv).settings inputs input) command := by
  obtain ⟨hflags, -, hcommand⟩ := command_iff.1 built
  have hpaths : (scriptFor (resolve t.settings argv).settings inputs input).includePaths = saidPaths items :=
    resolve_includePaths rfl said
  have hempty : [] ∉ saidPaths items ↔ ∀ item ∈ items, item.tokens ≠ [includeName, []] := by
    rw [empty_mem_saidPaths]
    simp
  constructor
  case paths => exact hpaths
  case placed => exact hcommand
  case gathered => rw [gather_eq_iff hflags, hpaths, hempty]
  case readBack =>
    intro hsome
    rw [resolve_inputs resolved said] at listed
    obtain ⟨item, -, hitem⟩ := List.mem_filterMap.1 listed
    cases item with
    | input token plain =>
      obtain rfl : token = input := Option.some.inj hitem
      exact exists_readBack (hpaths ▸ hempty.2 hsome) plain
    | _ => cases hitem

/-! ## Two command lines -/

def usualScript (paths : List Text) : Script := ⟨"a.rs", "a.bc", paths, .bitcode, false, usualApi⟩

theorem usualScript_command (paths : List Text) : (Compiler.mk {} []).command default (usualScript paths) =
    .ok (frontArgs ["clang"] (usualScript paths) ++ (includeArgs paths ++ backArgs (usualScript paths))) :=
  command_iff.2 ⟨rfl, ⟨_, Decimal.write_of_denotes (Decimal.ofInt_denotes usualApi) (by decide)⟩, rfl⟩

theorem usualScript_of_said (paths : List Text) {argv : List Text} {items : List Item} (said : Said argv.tail items none)
    (hsome : argv.tail ≠ [])
    (hsettings : (Resolution.ofMatched {} ⟨[], items.map Item.arg, none⟩).settings = { includePaths := paths })
    (hinputs : (Resolution.ofMatched {} ⟨[], items.map Item.arg, none⟩).inputs = .ok ["a.rs"]) :
    (resolve {} argv).inputs = .ok ["a.rs"] ∧ scriptFor (resolve {} argv).settings ["a.rs"] "a.rs" = usualScript paths := by
  obtain ⟨hsame, hsame', -⟩ := resolve_of_said {} argv items hsome said
  refine ⟨hsame'.trans hinputs, ?_⟩
  rw [hsame, hsettings]
  rfl

/-- An include path in a token of its own, and one in the token of its option. -/
def includeLine : List Text := ["rscc", "-I", "include", "a.rs", "-Ishared dir"]

theorem include_listed : includeName ∈ valueNames := by decide

theorem script_plain : isInput "a.rs" = true := rfl

def includeItems : List Item :=
  [.valued includeName include_listed "include", .input "a.rs" script_plain,
    .includeDir "shared dir" (List.cons_ne_nil _ _)]

theorem command_includes_both : (resolve {} includeLine).inputs = .ok ["a.rs"] ∧
    scriptFor (resolve {} includeLine).settings ["a.rs"] "a.rs" = usualScript ["include", "shared dir"] ∧
    SaysIncludes includeItems ["clang"] (usualScript ["include", "shared dir"])
      ["clang", "-x", "c", "-std=c99", "-DRS_VERSION=16", "-Iinclude", "-Ishared dir", "-c", "-emit-llvm", "-o", "a.bc",
        "a.rs"] := by
  have said : Said includeLine.tail includeItems none := ⟨nofun, rfl⟩
  obtain ⟨hinputs, hscript⟩ := usualScript_of_said ["include", "shared dir"] said (List.cons_ne_nil _ _) (by rfl) (by rfl)
  have built := (congrArg _ hscript).trans (usualScript_command ["include", "shared dir"])
  have hquiet := command_includes {} hinputs said (List.mem_singleton_self _) built
  rw [show scriptFor (resolve (Toolchain.settings {}) includeLine).settings ["a.rs"] "a.rs" = _ from hscript] at hquiet
  exact ⟨hinputs, hscript, hquiet⟩

/-- An empty include path, said as a token of its own. -/
def emptyIncludeLine : List Text := ["rscc", "-I", "", "a.rs"]

/-- **The option with an empty path takes the flag after it.** -/
theorem emptyInclude_takes_flag : (resolve {} emptyIncludeLine).inputs = .ok ["a.rs"] ∧
    scriptFor (resolve {} emptyIncludeLine).settings ["a.rs"] "a.rs" = usualScript [[]] ∧
    (Compiler.mk {} []).command default (usualScript [[]]) = .ok (["clang", "-x", "c", "-std=c99", "-DRS_VERSION=16"] ++
      ["-I", "-c", "-emit-llvm", "-o", "a.bc", "a.rs"]) ∧
    includeRow.gather ["-I", "-c", "-emit-llvm", "-o", "a.bc", "a.rs"] =
      ([("-c" : Text)], [("-emit-llvm" : Text), "-o", "a.bc", "a.rs"]) := by
  have said : Said emptyIncludeLine.tail [.valued includeName include_listed [], .input "a.rs" script_plain] none :=
    ⟨nofun, rfl⟩
  obtain ⟨hinputs, hscript⟩ := usualScript_of_said [[]] said (List.cons_ne_nil _ _) (by rfl) (by rfl)
  refine ⟨hinputs, hscript, usualScript_command [[]], gather_bare.trans ?_⟩
  rw [gather_other (by decide)]

end Backend
end ScriptDriver
