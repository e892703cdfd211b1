import ScriptDriver.Proofs.Settings.Problem
/-!
# Topic — what resolving asks a command line

Every item of a command line is about one topic: the inputs, the tokens that are no options, or an option or a group of
options under all its names (`exists_topic`, `topic_unique`).  About a few topics resolving asks for all that is said,
about the others for the last word only.  So command lines that give the same answers come to the same (`ofMatched_agree`).
-/
namespace ScriptDriver.CommandLine

/-- **What an item can be about.** -/
inductive Topic where
  | input
  | unknown
  | includeDir
  | outputDir
  | mode
  | outputType
  | rsNames
  | reflectionBase
  | reflectionPackage
  | place
  | dependencyDir
  | dependencyTarget
  | level
  | help
  | version
  deriving DecidableEq

namespace Topic

def all : List Topic :=
  [.input, .unknown, .includeDir, .outputDir, .mode, .outputType, .rsNames, .reflectionBase, .reflectionPackage, .place,
    .dependencyDir, .dependencyTarget, .level, .help, .version]

/-- The options about a topic, under all their names. -/
def names : Topic → List Text
  | .input | .unknown => []
  | .includeDir => ["-I"]
  | .outputDir => ["-o"]
  | .mode => modeNames
  | .outputType => typeNames
  | .rsNames => ["-allow-rs-prefix"]
  | .reflectionBase => ["-java-reflection-path-base", "-p"]
  | .reflectionPackage => ["-java-reflection-package-name", "-j"]
  | .place => placeNames
  | .dependencyDir => ["-output-dep-dir", "-d"]
  | .dependencyTarget => ["-additional-dep-target", "-a"]
  | .level => levelNames
  | .help => helpSpellings
  | .version => versionSpellings

/-- What is asked for to learn about a topic. -/
def id : Topic → OptionId
  | .input => .input
  | .unknown => .unknown
  | .includeDir => .includeDir
  | .outputDir => .outputDir
  | .mode => .dependencyGroup
  | .outputType => .outputGroup
  | .rsNames => .allowRsNames
  | .reflectionBase => .reflectionBase
  | .reflectionPackage => .reflectionPackage
  | .place => .bitcodeStorage
  | .dependencyDir => .dependencyDir
  | .dependencyTarget => .dependencyTarget
  | .level => .targetApi
  | .help => .help
  | .version => .version

/-- The topics about which all that is said counts, and not only the last word. -/
def gathered : List Topic := [.input, .unknown, .includeDir, .dependencyTarget]

end Topic

/-- Whether an item is about a topic. -/
def Item.isAbout (t : Topic) : Item → Bool
  | .input _ _ => t = .input
  | .unknown _ _ => t = .unknown
  | item => item.isNamed t.names

/-! ## Items and topics -/

theorem Topic.mem_all (t : Topic) : t ∈ Topic.all := by cases t <;> decide

/-- The options that can be named are the options about the topics, each about one. -/
theorem topic_names : ∀ name ∈ flagNames ++ valueNames ++ [includeName, storageName],
    name ∈ Topic.all.flatMap Topic.names := by decide +kernel

theorem topic_names_disjoint : ∀ s ∈ Topic.all, ∀ t ∈ Topic.all, s ≠ t → ∀ name ∈ s.names, name ∉ t.names := by
  decide +kernel

theorem topic_countsAs {t : Topic} (hinput : t ≠ .input) (hunknown : t ≠ .unknown) : CountsAs t.names t.id := by
  cases t with
  | input => exact absurd rfl hinput
  | unknown => exact absurd rfl hunknown
  | _ => exact ⟨nofun, nofun, rfl⟩

theorem isAbout_place (item : Item) : item.isAbout .place = item.isNamed placeNames := by cases item <;> rfl

theorem isAbout_level (item : Item) : item.isAbout .level = item.isNamed levelNames := by cases item <;> rfl

theorem isAbout_of_name {item : Item} {name : Text} (h : item.name? = some name) (t : Topic) :
    item.isAbout t = t.names.contains name := by
  have hnamed : item.isNamed t.names = t.names.contains name := by rw [Item.isNamed, h, Option.any_some]
  cases item with
  | input | unknown => cases h
  | _ => exact hnamed

/-- **What an item counts as is what it is about.** -/
theorem among_topic (item : Item) (t : Topic) : item.arg.among [t.id] = item.isAbout t := by
  cases hname : item.name? with
  | none =>
    cases item with
    | input | unknown => cases t <;> rfl
    | flag | valued | includeDir | storage => cases hname
  | some name =>
    rw [isAbout_of_name hname]
    by_cases hinput : t = .input
    · rw [hinput]
      exact (among_of_name hname).1
    by_cases hunknown : t = .unknown
    · rw [hunknown]
      exact (among_of_name hname).2
    · rw [among_item (topic_countsAs hinput hunknown), Item.isNamed, hname, Option.any_some]

/-- **The arguments about a topic are those of the items about it.** -/
theorem filtered_topic {m : Matched} {items : List Item} (h : m.args.map Arg.unplaced = items.map Item.arg) (t : Topic) :
    (m.filtered [t.id]).map Arg.unplaced = (items.filter (·.isAbout t)).map Item.arg := by
  rw [filtered_items h, funext fun item => among_topic item t]

theorem name_listed {item : Item} {name : Text} (h : item.name? = some name) :
    name ∈ flagNames ++ valueNames ++ [includeName, storageName] := by
  cases item with
  | input | unknown => cases h
  | flag name listed => cases h; simp [listed]
  | valued name listed value => cases h; simp [listed]
  | includeDir | storage => cases h; simp

/-- **Every item is about a topic.** -/
theorem exists_topic (item : Item) : ∃ t : Topic, item.isAbout t = true := by
  cases hname : item.name? with
  | none =>
    cases item with
    | input => exact ⟨.input, rfl⟩
    | unknown => exact ⟨.unknown, rfl⟩
    | flag | valued | includeDir | storage => cases hname
  | some name =>
    obtain ⟨t, -, ht⟩ := List.mem_flatMap.1 (topic_names name (name_listed hname))
    exact ⟨t, by rw [isAbout_of_name hname, List.contains_iff_mem]; exact ht⟩

/-- **No item is about two topics.** -/
theorem topic_unique {item : Item} {s t : Topic} (hs : item.isAbout s = true) (ht : item.isAbout t = true) : s = t := by
  cases hname : item.name? with
  | none =>
    cases item with
    | input | unknown => exact (of_decide_eq_true hs).trans (of_decide_eq_true ht).symm
    | flag | valued | includeDir | storage => cases hname
  | some name =>
    rw [isAbout_of_name hname, List.contains_iff_mem] at hs ht
    by_contra hne
    exact topic_names_disjoint s s.mem_all t t.mem_all hne name hs ht

/-! ## Answers -/

/-- What an argument means: the option it counts as and its values. -/
def Arg.meaning (a : Arg) : Descriptor × List Text := (a.option, a.values)

/-- **Command lines that answer alike** all that resolving asks, as far as `view` tells arguments apart: everything that
is said about the topics of which all counts, and the last word about every topic. -/
structure Matched.Agree {α : Type} (view : Arg → α) (m m' : Matched) : Prop where
  all : ∀ t ∈ Topic.gathered, (m.filtered [t.id]).map view = (m'.filtered [t.id]).map view
  last : ∀ t : Topic, (m.last? [t.id]).map view = (m'.last? [t.id]).map view

theorem Matched.Agree.comp {α β : Type} {view : Arg → α} {m m' : Matched} (h : m.Agree view m') (f : α → β) :
    m.Agree (fun a => f (view a)) m' := by
  constructor
  · intro t ht
    have hmap := congrArg (List.map f) (h.all t ht)
    rwa [List.map_map, List.map_map] at hmap
  · intro t
    have hmap := congrArg (Option.map f) (h.last t)
    rwa [Option.map_map, Option.map_map] at hmap

section
variable {a a' : Option Arg} (h : a.map Arg.meaning = a'.map Arg.meaning)
include h

/-- Two arguments of one meaning, or none at all. -/
theorem meaning_cases :
    (a = none ∧ a' = none) ∨ ∃ b b', a = some b ∧ a' = some b' ∧ b.option = b'.option ∧ b.values = b'.values := by
  cases a <;> cases a' <;> simp [Arg.meaning] at h ⊢
  exact h

theorem withMode_congr (s : Settings) : s.withMode a = s.withMode a' := by
  rcases meaning_cases h with ⟨rfl, rfl⟩ | ⟨b, b', rfl, rfl, ho, -⟩
  · rfl
  · have hid : b.id = b'.id := congrArg Descriptor.id ho
    simp only [Settings.withMode, hid]

theorem withType_congr (s : Settings) : s.withType a = s.withType a' := by
  rcases meaning_cases h with ⟨rfl, rfl⟩ | ⟨b, b', rfl, rfl, ho, -⟩
  · rfl
  · have hid : b.id = b'.id := congrArg Descriptor.id ho
    simp only [Settings.withType, hid]

end

section
variable {m m' : Matched} (id : OptionId) (h : (m.last? [id]).map Arg.meaning = (m'.last? [id]).map Arg.meaning)

theorem has_eq_isSome (m : Matched) (ids : List OptionId) : m.has ids = (m.last? ids).isSome := by
  rw [Matched.has, Matched.last?, Matched.filtered, Bool.eq_iff_iff, List.getLast?_isSome, List.any_eq_true, ne_eq,
    List.filter_eq_nil_iff]
  simp

include h

theorem has_congr : m.has [id] = m'.has [id] := by
  have hsome := congrArg Option.isSome h
  rwa [Option.isSome_map, Option.isSome_map, ← has_eq_isSome, ← has_eq_isSome] at hsome

theorem lastValue_congr (default : Text) : m.lastValue id default = m'.lastValue id default := by
  unfold Matched.lastValue
  rcases meaning_cases h with ⟨hm, hm'⟩ | ⟨b, b', hm, hm', -, hv⟩
  · rw [hm, hm']
  · simp only [hm, hm', Arg.value, hv]

/-- The level is read alike, or it is no integer in either. -/
theorem lastInteger_congr : m.lastInteger id = m'.lastInteger id ∨
    ∃ b b', m.lastInteger id = .malformed b ∧ m'.lastInteger id = .malformed b' := by
  unfold Matched.lastInteger
  rcases meaning_cases h with ⟨hm, hm'⟩ | ⟨b, b', hm, hm', -, hv⟩
  · rw [hm, hm']
    exact .inl rfl
  · have hvalue : b.value = b'.value := by unfold Arg.value; rw [hv]
    rw [hm, hm']
    simp only [hvalue]
    by_cases hinteger : Decimal.isInteger b'.value = true
    · exact .inl (by rw [if_pos hinteger, if_pos hinteger])
    · exact .inr ⟨b, b', if_neg hinteger, if_neg hinteger⟩

end

section
variable {m m' : Matched} (h : m.Agree Arg.meaning m')
include h

theorem allValues_agree (t : Topic) (ht : t ∈ Topic.gathered) : m.allValues t.id = m'.allValues t.id := by
  have hmap := congrArg (List.flatMap Prod.snd) (h.all t ht)
  rw [List.flatMap_map, List.flatMap_map] at hmap
  exact hmap

theorem inputs_agree : (m.filtered [.input]).map (·.value) = (m'.filtered [.input]).map (·.value) := by
  have hmap := congrArg (List.map fun p => p.2.headD []) (h.all .input (by decide))
  rw [List.map_map, List.map_map] at hmap
  exact hmap

theorem filled_agree (defaults : Settings) : defaults.filled m = defaults.filled m' := by
  have hdirs : m.allValues .includeDir = m'.allValues .includeDir := allValues_agree h .includeDir (by decide)
  have htargets : m.allValues .dependencyTarget = m'.allValues .dependencyTarget :=
    allValues_agree h .dependencyTarget (by decide)
  have hmode (s : Settings) : s.withMode (m.last? [.dependencyGroup]) = s.withMode (m'.last? [.dependencyGroup]) :=
    withMode_congr (h.last .mode) s
  have htype (s : Settings) : s.withType (m.last? [.outputGroup]) = s.withType (m'.last? [.outputGroup]) :=
    withType_congr (h.last .outputType) s
  unfold Settings.filled
  simp only [hdirs, htargets, hmode, htype, has_congr .allowRsNames (h.last .rsNames), has_congr .help (h.last .help),
    has_congr .version (h.last .version), lastValue_congr .outputDir (h.last .outputDir),
    lastValue_congr .reflectionBase (h.last .reflectionBase),
    lastValue_congr .reflectionPackage (h.last .reflectionPackage), lastValue_congr .bitcodeStorage (h.last .place),
    lastValue_congr .dependencyDir (h.last .dependencyDir)]

theorem storageReports_agree : m.storageReports = m'.storageReports := by
  unfold Matched.storageReports
  rw [lastValue_congr .bitcodeStorage (h.last .place)]

/-- **Command lines that answer alike come to the same settings and inputs.** -/
theorem ofMatched_agree (defaults : Settings) :
    (Resolution.ofMatched defaults m).settings = (Resolution.ofMatched defaults m').settings ∧
    (Resolution.ofMatched defaults m).inputs = (Resolution.ofMatched defaults m').inputs := by
  unfold Resolution.ofMatched
  rw [filled_agree h, inputs_agree h]
  rcases lastInteger_congr .targetApi (h.last .level) with hl | ⟨b, b', hb, hb'⟩
  · rw [hl]
    cases m'.lastInteger .targetApi <;> exact ⟨rfl, rfl⟩
  · rw [hb, hb']
    exact ⟨rfl, rfl⟩

end

/-! ## Reports -/

/-- Reports about the last level, from how it is shown and what it is. -/
theorem levelReports_eq (m : Matched) : m.levelReports =
    (((m.last? [.targetApi]).map fun a => (a.asText, a.value)).filter fun level => !Decimal.isInteger level.2).toList.map
      fun level => .of .invalidInteger [.text level.1, .text level.2] := by
  unfold Matched.levelReports Matched.lastInteger
  cases m.last? [.targetApi] with
  | none => rfl
  | some a =>
    rw [Option.map_some, Option.filter_some]
    by_cases hinteger : Decimal.isInteger a.value = true
    · simp only [hinteger, if_true]
      cases Decimal.read a.value <;> rfl
    · simp [hinteger]

section
variable {m m' : Matched} (h : m.Agree Arg.unplaced m')
include h

theorem unknownReports_agree : m.unknownReports = m'.unknownReports := by
  have hmap := congrArg (List.map fun token => Diagnostic.of .unknownArgument [.text token])
    ((h.comp Arg.asText).all .unknown (by decide))
  rw [List.map_map, List.map_map] at hmap
  exact hmap

theorem conflictReports_agree (s : Settings) : m.conflictReports s = m'.conflictReports s := by
  have hmode : (m.last? [.dependencyGroup]).map Arg.asText = (m'.last? [.dependencyGroup]).map Arg.asText :=
    (h.comp Arg.asText).last .mode
  have htype : (m.last? [.outputGroup]).map Arg.asText = (m'.last? [.outputGroup]).map Arg.asText :=
    (h.comp Arg.asText).last .outputType
  rw [conflictReports_eq, conflictReports_eq, hmode, htype]

theorem levelReports_agree : m.levelReports = m'.levelReports := by
  have hlevel : (m.last? [.targetApi]).map (fun a => (a.asText, a.value)) =
      (m'.last? [.targetApi]).map fun a => (a.asText, a.value) := (h.comp fun a => (a.asText, a.value)).last .level
  rw [levelReports_eq, levelReports_eq, hlevel]

/-- **Command lines that answer alike come to the same**, wherever their arguments are. -/
theorem ofMatched_congr (hmissing : m.missingReports = m'.missingReports) (defaults : Settings) :
    Resolution.ofMatched defaults m = Resolution.ofMatched defaults m' := by
  have hmeaning : m.Agree Arg.meaning m' := h.comp Arg.meaning
  obtain ⟨hsettings, hinputs⟩ := ofMatched_agree hmeaning defaults
  have hreports : (Resolution.ofMatched defaults m).reports = (Resolution.ofMatched defaults m').reports := by
    rw [ofMatched_reports, ofMatched_reports, hmissing, filled_agree hmeaning, unknownReports_agree h,
      conflictReports_agree h, storageReports_agree hmeaning, levelReports_agree h]
  calc Resolution.ofMatched defaults m
      = ⟨(Resolution.ofMatched defaults m).settings, (Resolution.ofMatched defaults m).reports,
          (Resolution.ofMatched defaults m).inputs⟩ := rfl
    _ = ⟨(Resolution.ofMatched defaults m').settings, (Resolution.ofMatched defaults m').reports,
          (Resolution.ofMatched defaults m').inputs⟩ := by rw [hsettings, hreports, hinputs]

end

end ScriptDriver.CommandLine
