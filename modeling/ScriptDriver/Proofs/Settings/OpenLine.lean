import ScriptDriver.Proofs.Settings.Rearrangement
/-!
# OpenLine — command lines that differ in the last word about something

A command line with a place for its last word about a topic is read alike whatever stands there, as far as other topics
are concerned (`OpenLine.alikeApart`).  So what stands there decides no more than that topic does (`filled_alikeApart`).
-/
namespace ScriptDriver

open CommandLine

theorem isAbout_mode (item : Item) : item.isAbout .mode = item.isNamed modeNames := by cases item <;> rfl

/-- **A command line with a place for its last word about a topic.** -/
structure OpenLine (t : Topic) where
  prog : Text
  before : List Item
  later : List Item
  last : ∀ item ∈ later, item.isAbout t = false

namespace OpenLine

variable {t : Topic} (line : OpenLine t)

def items (x : Item) : List Item := line.before ++ x :: line.later

def argv (x : Item) : List Text := line.prog :: (line.items x).flatMap Item.tokens

theorem said (x : Item) : Said (line.argv x).tail (line.items x) none := ⟨nofun, (List.append_nil _).symm⟩

/-- **Every command line that says something about a topic is one of these.** -/
theorem exists_of_last {argv : List Text} {items : List Item} (hsaid : Said argv.tail items none) {x : Item}
    (hlast : (items.filter (·.isAbout t)).getLast? = some x) :
    ∃ line : OpenLine t, items = line.items x ∧ argv = line.argv x := by
  obtain ⟨before, later, rfl, -, hlater⟩ := getLast?_filter_eq_some.1 hlast
  cases argv with
  | nil =>
    obtain ⟨hnil, -⟩ := said_nil hsaid
    exact absurd hnil (List.append_ne_nil_of_right_ne_nil before (List.cons_ne_nil x later))
  | cons prog tokens =>
    refine ⟨⟨prog, before, later, hlater⟩, rfl, ?_⟩
    have htokens : tokens = (before ++ x :: later).flatMap Item.tokens ++ [] := hsaid.tokens_eq
    rw [htokens, List.append_nil]
    rfl

section
variable {x : Item} (hx : x.isAbout t = true)
include hx

/-- About other topics nothing is said in that place. -/
theorem filter_items {r : Topic} (hr : r ≠ t) :
    (line.items x).filter (·.isAbout r) = (line.before ++ line.later).filter (·.isAbout r) := by
  have hnot : ¬ x.isAbout r = true := fun h => hr (topic_unique h hx)
  rw [items, List.filter_append, List.filter_append, List.filter_cons_of_neg hnot]

theorem filter_last : ((line.items x).filter (·.isAbout t)).getLast? = some x := by
  have hlater : line.later.filter (·.isAbout t) = [] :=
    List.filter_eq_nil_iff.2 fun item hitem => Bool.eq_false_iff.1 (line.last item hitem)
  rw [items, List.filter_append, List.filter_cons_of_pos hx, hlater, List.getLast?_concat]

theorem lastNamed_items {r : Topic} {names : List Text} (hnames : ∀ item : Item, item.isAbout r = item.isNamed names)
    (hr : r ≠ t) : lastNamed names (line.items x) = lastNamed names (line.before ++ line.later) := by
  have hfilter := congrArg List.getLast? (line.filter_items hx hr)
  rwa [funext hnames] at hfilter

theorem lastNamed_last {names : List Text} (hnames : ∀ item : Item, item.isAbout t = item.isNamed names) :
    lastNamed names (line.items x) = some x := by
  have hlast := line.filter_last hx
  rwa [funext hnames] at hlast

omit hx in
theorem unknowns_items (hx : x.unknown? = none) :
    (line.items x).filterMap Item.unknown? = (line.before ++ line.later).filterMap Item.unknown? := by
  rw [items, List.filterMap_append, List.filterMap_append, List.filterMap_cons_none hx]

end

theorem exists_reading (x : Item) (s : Settings) : ∃ m : Matched,
    m.args.map Arg.unplaced = (line.items x).map Item.arg ∧ resolve s (line.argv x) = .ofMatched s m ∧
      (resolve s (line.argv x)).reports =
        problemsAround (m.conflictReports (s.filled m)) (line.items x) none := by
  obtain ⟨m, hm, htokens, hargs, hshortage⟩ := read_of_said (line.said x)
  have hsome : (line.argv x).tail ≠ [] := by
    intro hnil
    have hitems := line.said x
    rw [hnil] at hitems
    cases (List.append_eq_nil_iff.1 (said_nil hitems).1).2
  have hresolve := resolve_of_read s hsome hm
  refine ⟨m, hargs, hresolve, ?_⟩
  rw [hresolve, ofMatched_problemsAround s (htokens.trans (line.said x).tokens_eq) hargs hshortage]

end OpenLine

/-! ## Readings that differ about some topics -/

/-- **Command lines that answer alike** whatever is asked about other topics than these. -/
def AlikeApart (apart : List Topic) (m m' : Matched) : Prop :=
  ∀ t : Topic, t ∉ apart → (m.filtered [t.id]).map Arg.unplaced = (m'.filtered [t.id]).map Arg.unplaced

theorem AlikeApart.mono {apart apart' : List Topic} {m m' : Matched} (h : AlikeApart apart m m')
    (hsub : apart ⊆ apart') : AlikeApart apart' m m' := fun t ht => h t fun hmem => ht (hsub hmem)

theorem OpenLine.alikeApart {t : Topic} {line : OpenLine t} {x y : Item} (hx : x.isAbout t = true)
    (hy : y.isAbout t = true) {m m' : Matched} (hargs : m.args.map Arg.unplaced = (line.items x).map Item.arg)
    (hargs' : m'.args.map Arg.unplaced = (line.items y).map Item.arg) : AlikeApart [t] m m' := by
  intro r hr
  have hne : r ≠ t := fun h => hr (h ▸ List.mem_singleton_self t)
  rw [filtered_topic hargs, filtered_topic hargs', line.filter_items hx hne, line.filter_items hy hne]

section
variable {apart : List Topic} {m m' : Matched} (h : AlikeApart apart m m') {t : Topic} (ht : t ∉ apart)
include h ht

theorem last?_alikeApart : (m.last? [t.id]).map Arg.unplaced = (m'.last? [t.id]).map Arg.unplaced := by
  rw [Matched.last?, Matched.last?, ← List.getLast?_map, ← List.getLast?_map, h t ht]

theorem lastMeaning_alikeApart : (m.last? [t.id]).map Arg.meaning = (m'.last? [t.id]).map Arg.meaning := by
  have hmap := congrArg (Option.map Arg.meaning) (last?_alikeApart h ht)
  rwa [Option.map_map, Option.map_map] at hmap

theorem lastText_alikeApart : (m.last? [t.id]).map Arg.asText = (m'.last? [t.id]).map Arg.asText := by
  have hmap := congrArg (Option.map Arg.asText) (last?_alikeApart h ht)
  rwa [Option.map_map, Option.map_map] at hmap

theorem allValues_alikeApart : m.allValues t.id = m'.allValues t.id := by
  have hmap := congrArg (List.flatMap Arg.values) (h t ht)
  rwa [List.flatMap_map, List.flatMap_map] at hmap

end

theorem inputs_alikeApart {apart : List Topic} {m m' : Matched} (h : AlikeApart apart m m') (ht : .input ∉ apart) :
    (m.filtered [.input]).map (·.value) = (m'.filtered [.input]).map (·.value) := by
  have hmap := congrArg (List.map Arg.value) (h .input ht)
  rwa [List.map_map, List.map_map] at hmap

def askedType (m : Matched) : Option OutputType := (m.last? [.outputGroup]).bind fun a => OutputType.ofOption? a.id

theorem askedType_alikeApart {apart : List Topic} {m m' : Matched} (h : AlikeApart apart m m')
    (ht : .outputType ∉ apart) : askedType m = askedType m' := by
  have hbind := congrArg (Option.bind · fun p : Descriptor × List Text => OutputType.ofOption? p.1.id)
    (lastMeaning_alikeApart h ht)
  rwa [Option.bind_map, Option.bind_map] at hbind

/-- **The mode has a say in the output type and in whether dependency files are wanted**, and in nothing else; the level
has none in the settings that are filled in before it. -/
theorem filled_alikeApart {m m' : Matched} (h : AlikeApart [.mode, .level] m m') (s : Settings) : ∃ type wanted,
    s.filled m' = { s.filled m with outputType := type, withDependencies := wanted } := by
  have hlast {t : Topic} (ht : t ∉ [.mode, .level]) := lastMeaning_alikeApart h ht
  have hdirs : m.allValues .includeDir = m'.allValues .includeDir := allValues_alikeApart h (t := .includeDir) (by decide)
  have htargets : m.allValues .dependencyTarget = m'.allValues .dependencyTarget :=
    allValues_alikeApart h (t := .dependencyTarget) (by decide)
  have htype (s : Settings) : s.withType (m.last? [.outputGroup]) = s.withType (m'.last? [.outputGroup]) :=
    withType_congr (hlast (t := .outputType) (by decide)) s
  unfold Settings.filled
  simp only [hdirs, htargets, htype, has_congr .allowRsNames (hlast (t := .rsNames) (by decide)),
    has_congr .help (hlast (t := .help) (by decide)), has_congr .version (hlast (t := .version) (by decide)),
    lastValue_congr .outputDir (hlast (t := .outputDir) (by decide)),
    lastValue_congr .reflectionBase (hlast (t := .reflectionBase) (by decide)),
    lastValue_congr .reflectionPackage (hlast (t := .reflectionPackage) (by decide)),
    lastValue_congr .bitcodeStorage (hlast (t := .place) (by decide)),
    lastValue_congr .dependencyDir (hlast (t := .dependencyDir) (by decide))]
  cases m.last? [.dependencyGroup] <;> cases m'.last? [.dependencyGroup] <;> cases m'.last? [.outputGroup] <;>
    exact ⟨_, _, rfl⟩

/-- **The level has no say in the settings that are filled in before it.** -/
theorem filled_sameMode {m m' : Matched} (h : AlikeApart [.level] m m') (s : Settings) : s.filled m' = s.filled m := by
  have hmode := lastMeaning_alikeApart h (t := .mode) (by decide)
  have hsome := congrArg Option.isSome hmode
  have hkind := congrArg (Option.map fun p : Descriptor × List Text =>
    if p.1.id = .dependencyOnly then OutputType.dependency else .bitcode) hmode
  rw [Option.isSome_map, Option.isSome_map] at hsome
  rw [Option.map_map, Option.map_map] at hkind
  have hwanted : (s.filled m').withDependencies = (s.filled m).withDependencies := by
    rw [filled_withDependencies, filled_withDependencies]
    exact congrArg (s.withDependencies || ·) hsome.symm
  have htype : (s.filled m').outputType = (s.filled m).outputType := by
    rw [filled_outputType, filled_outputType]
    exact congrArg₂ (fun asked kind => (asked.or kind).getD s.outputType)
      (askedType_alikeApart h (by decide)).symm hkind.symm
  obtain ⟨type, wanted, hfilled⟩ := filled_alikeApart (h.mono (by decide)) s
  rw [hfilled] at hwanted htype ⊢
  rw [show type = _ from htype, show wanted = _ from hwanted]

end ScriptDriver
