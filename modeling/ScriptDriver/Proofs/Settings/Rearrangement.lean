import ScriptDriver.Proofs.Settings.Topic
/-!
# Rearrangement — what can be moved on a command line, and left out

What is said about one topic has no say in what is said about another, and about most topics the last word counts.  So two
neighbours can change places if they are about different topics (`resolve_swapped`), and what a later option overrides
might as well not be there (`resolve_overridden`).
-/
namespace ScriptDriver

open CommandLine

/-- **Items that answer alike** all that resolving asks. -/
structure AnswerAlike (items items' : List Item) : Prop where
  all : ∀ t ∈ Topic.gathered, items.filter (·.isAbout t) = items'.filter (·.isAbout t)
  last : ∀ t : Topic, (items.filter (·.isAbout t)).getLast? = (items'.filter (·.isAbout t)).getLast?

theorem AnswerAlike.agree {items items' : List Item} (h : AnswerAlike items items') {m m' : Matched}
    (hargs : m.args.map Arg.unplaced = items.map Item.arg) (hargs' : m'.args.map Arg.unplaced = items'.map Item.arg) :
    m.Agree Arg.unplaced m' := by
  constructor
  · intro t ht
    rw [filtered_topic hargs, filtered_topic hargs', h.all t ht]
  · intro t
    rw [Matched.last?, Matched.last?, ← List.getLast?_map, ← List.getLast?_map, filtered_topic hargs,
      filtered_topic hargs', List.getLast?_map, List.getLast?_map, h.last t]

/-- **Command lines in items that answer alike are resolved alike.** -/
theorem resolve_of_answerAlike (defaults : Settings) (prog : Text) {tokens tokens' : List Text} {items items' : List Item}
    {last : Option Text} (hsaid : Said tokens items last) (hsaid' : Said tokens' items' last) (hsome : items ≠ [])
    (hsome' : items' ≠ []) (h : AnswerAlike items items') :
    resolve defaults (prog :: tokens) = resolve defaults (prog :: tokens') := by
  obtain ⟨m, hm, htokens, hargs, hshortage⟩ := read_of_said hsaid
  obtain ⟨m', hm', htokens', hargs', hshortage'⟩ := read_of_said hsaid'
  have hne : (prog :: tokens).tail ≠ [] := by
    rintro rfl
    exact hsome (said_nil hsaid).1
  have hne' : (prog :: tokens').tail ≠ [] := by
    rintro rfl
    exact hsome' (said_nil hsaid').1
  have hmissing : m.missingReports = m'.missingReports := by
    rw [missingReports_items (htokens.trans hsaid.tokens_eq) hshortage,
      missingReports_items (htokens'.trans hsaid'.tokens_eq) hshortage']
  calc resolve defaults (prog :: tokens)
      = .ofMatched defaults m := resolve_of_read defaults hne hm
    _ = .ofMatched defaults m' := ofMatched_congr (h.agree hargs hargs') hmissing defaults
    _ = resolve defaults (prog :: tokens') := (resolve_of_read defaults hne' hm').symm

/-! ## The order of items -/

/-- **The order of what is said about different topics does not matter.** -/
theorem resolve_reordered (defaults : Settings) (prog : Text) {tokens tokens' : List Text} {items items' : List Item}
    {last : Option Text} (hsaid : Said tokens items last) (hsaid' : Said tokens' items' last)
    (h : ∀ t : Topic, items.filter (·.isAbout t) = items'.filter (·.isAbout t)) :
    resolve defaults (prog :: tokens) = resolve defaults (prog :: tokens') := by
  have hnil {a b : List Item} (hab : ∀ t : Topic, a.filter (·.isAbout t) = b.filter (·.isAbout t)) (ha : a = []) :
      b = [] := by
    rw [List.eq_nil_iff_forall_not_mem]
    intro item hitem
    obtain ⟨t, ht⟩ := exists_topic item
    have hmem : item ∈ a.filter (·.isAbout t) := hab t ▸ List.mem_filter.2 ⟨hitem, ht⟩
    rw [ha] at hmem
    cases hmem
  by_cases hitems : items = []
  · have hitems' := hnil h hitems
    rw [hsaid.tokens_eq, hsaid'.tokens_eq, hitems, hitems']
  · exact resolve_of_answerAlike defaults prog hsaid hsaid' hitems (mt (hnil fun t => (h t).symm) hitems)
      ⟨fun t _ => h t, fun t => by rw [h t]⟩

theorem filter_swapped (before later : List Item) {x y : Item} {s t : Topic} (hx : x.isAbout s = true)
    (hy : y.isAbout t = true) (hne : s ≠ t) (r : Topic) :
    (before ++ x :: y :: later).filter (·.isAbout r) = (before ++ y :: x :: later).filter (·.isAbout r) := by
  rw [List.filter_append, List.filter_append]
  by_cases hxr : x.isAbout r = true
  · -- two items of one topic would stay in their order, but these two are not
    have hyr : ¬ y.isAbout r = true := fun hyr => hne ((topic_unique hx hxr).trans (topic_unique hyr hy))
    rw [List.filter_cons_of_pos hxr, List.filter_cons_of_neg hyr, List.filter_cons_of_neg hyr, List.filter_cons_of_pos hxr]
  · rw [List.filter_cons_of_neg hxr]
    by_cases hyr : y.isAbout r = true
    · rw [List.filter_cons_of_pos hyr, List.filter_cons_of_pos hyr, List.filter_cons_of_neg hxr]
    · rw [List.filter_cons_of_neg hyr, List.filter_cons_of_neg hyr, List.filter_cons_of_neg hxr]

/-- **Neighbours about different topics can change places**, and so anything can be said in any order that is the same
about each topic by itself. -/
theorem resolve_swapped (defaults : Settings) (prog : Text) :
    (∀ {front back : List Text} {before later : List Item} {last : Option Text}, Said front before none →
      Said back later last → ∀ {x y : Item} {s t : Topic}, x.isAbout s = true → y.isAbout t = true → s ≠ t →
        resolve defaults (prog :: (front ++ (x.tokens ++ (y.tokens ++ back)))) =
          resolve defaults (prog :: (front ++ (y.tokens ++ (x.tokens ++ back))))) ∧
    ∀ {tokens tokens' : List Text} {items items' : List Item} {last : Option Text}, Said tokens items last →
      Said tokens' items' last → (∀ t : Topic, items.filter (·.isAbout t) = items'.filter (·.isAbout t)) →
        resolve defaults (prog :: tokens) = resolve defaults (prog :: tokens') := by
  refine ⟨fun hfront hback x y s t hx hy hne => ?_, resolve_reordered defaults prog⟩
  exact resolve_reordered defaults prog (hfront.append ((hback.cons y).cons x)) (hfront.append ((hback.cons x).cons y))
    (filter_swapped _ _ hx hy hne)

/-- An output type and a mode that do not go together, before an option without its value; and a directory for the
output, one for dependency files and an input the other way round. -/
theorem resolve_swapped_conflict :
    resolve {} ["rscc", "a.rs", "-S", "-MD", "-Iinc", "-o", "-M", "-target-api"] =
      resolve {} ["rscc", "a.rs", "-MD", "-S", "-Iinc", "-o", "-M", "-target-api"] ∧
    resolve {} ["rscc", "-o", "out", "a.rs", "-d", "deps", "b.rs"] =
      resolve {} ["rscc", "a.rs", "b.rs", "-d", "deps", "-o", "out"] := by
  have hfront : Said ["a.rs"] [.input "a.rs" rfl] none := ⟨nofun, rfl⟩
  have hback : Said ["-Iinc", "-o", "-M", "-target-api"] [.includeDir "inc" (by decide), .valued "-o" (by decide) "-M"]
    (some "-target-api") := ⟨by decide, rfl⟩
  have hone : Said ["-o", "out", "a.rs", "-d", "deps", "b.rs"]
    [.valued "-o" (by decide) "out", .input "a.rs" rfl, .valued "-d" (by decide) "deps", .input "b.rs" rfl] none :=
    ⟨nofun, rfl⟩
  have hother : Said ["a.rs", "b.rs", "-d", "deps", "-o", "out"]
    [.input "a.rs" rfl, .input "b.rs" rfl, .valued "-d" (by decide) "deps", .valued "-o" (by decide) "out"] none :=
    ⟨nofun, rfl⟩
  refine ⟨?_, (resolve_swapped {} "rscc").2 hone hother fun t => by cases t <;> rfl⟩
  exact (resolve_swapped {} "rscc").1 hfront hback (x := .flag "-S" (by decide)) (y := .flag "-MD" (by decide))
    (s := .outputType) (t := .mode) (by decide) (by decide) (by decide)

/-! ## Overridden options -/

/-- The last word about a topic is said where the topic comes up last. -/
theorem last_of_later {before later : List Item} {t : Topic} (h : ∃ y ∈ later, y.isAbout t = true) :
    ((before ++ later).filter (·.isAbout t)).getLast? = (later.filter (·.isAbout t)).getLast? := by
  obtain ⟨y, hy, hyt⟩ := h
  have hsome : ((later.filter (·.isAbout t)).getLast?).isSome = true := by
    rw [List.getLast?_isSome]
    exact List.ne_nil_of_mem (List.mem_filter.2 ⟨hy, hyt⟩)
  obtain ⟨z, hz⟩ := Option.isSome_iff_exists.1 hsome
  rw [List.filter_append, List.getLast?_append, hz, Option.some_or]

theorem answerAlike_overridden (before : List Item) {later : List Item} {x : Item} {t : Topic} (ht : t ∉ Topic.gathered)
    (hx : x.isAbout t = true) (hlater : ∃ y ∈ later, y.isAbout t = true) :
    AnswerAlike (before ++ x :: later) (before ++ later) := by
  have hother (s : Topic) (hs : ¬ x.isAbout s = true) :
      (before ++ x :: later).filter (·.isAbout s) = (before ++ later).filter (·.isAbout s) := by
    rw [List.filter_append, List.filter_append, List.filter_cons_of_neg hs]
  constructor
  · intro s hs
    refine hother s fun hxs => ht ?_
    rwa [topic_unique hx hxs]
  · intro s
    by_cases hxs : x.isAbout s = true
    · obtain rfl := topic_unique hx hxs
      rw [List.append_cons, last_of_later hlater, last_of_later hlater]
    · rw [hother s hxs]

/-- What is wrong with the value of an item, whatever else is said. -/
def CommandLine.Item.complaint? (item : Item) : Option Diagnostic :=
  if item.isNamed placeNames && !([[], "ar", "jc"] : List Text).contains item.value then
    some (.of .invalidValue [.text "-bitcode-storage", .text item.value])
  else if item.isNamed levelNames && !Decimal.isInteger item.value then
    some (.of .invalidInteger [.text item.written, .text item.value])
  else none

theorem complaint_cases {x : Item} {p : Diagnostic} (h : x.complaint? = some p) :
    (p.id = .invalidValue ∧ x.isAbout .place = true) ∨ (p.id = .invalidInteger ∧ x.isAbout .level = true) := by
  rw [isAbout_place, isAbout_level]
  unfold Item.complaint? at h
  split at h
  · rename_i hplace
    cases h
    exact .inl ⟨rfl, (Bool.and_eq_true_iff.1 hplace).1⟩
  · split at h
    · rename_i hlevel
      cases h
      exact .inr ⟨rfl, (Bool.and_eq_true_iff.1 hlevel).1⟩
    · cases h

theorem isAbout_of_complaint {x : Item} {p : Diagnostic} (h : x.complaint? = some p) :
    x.isAbout (if p.id = .invalidValue then .place else .level) = true := by
  rcases complaint_cases h with ⟨hid, hx⟩ | ⟨hid, hx⟩
  · rwa [if_pos hid]
  · rwa [if_neg (hid ▸ DiagnosticId.noConfusion)]

/-- The same complaint is about the same topic. -/
theorem topic_of_complaint {x y : Item} {p : Diagnostic} (hx : x.complaint? = some p) (hy : y.complaint? = some p)
    {s t : Topic} (hs : x.isAbout s = true) (ht : y.isAbout t = true) : s = t :=
  (topic_unique hs (isAbout_of_complaint hx)).trans (topic_unique (isAbout_of_complaint hy) ht)

theorem complaint_of_badPlace {items : List Item} {place : Text} (h : place ∈ badPlace? items) :
    ∃ y ∈ (items.filter (·.isAbout .place)).getLast?,
      y.complaint? = some (.of .invalidValue [.text "-bitcode-storage", .text place]) := by
  obtain ⟨hlast, hbad⟩ := Option.filter_eq_some_iff.1 h
  obtain ⟨y, hy, rfl⟩ := Option.map_eq_some_iff.1 hlast
  have hnamed : y.isNamed placeNames = true := (List.mem_filter.1 (List.mem_of_getLast? hy)).2
  have hnone : y.value ∉ ([[], "ar", "jc"] : List Text) := of_decide_eq_true hbad
  rw [funext isAbout_place]
  exact ⟨y, hy, if_pos (Bool.and_eq_true_iff.2 ⟨hnamed, by simpa using hnone⟩)⟩

theorem complaint_of_badLevel {items : List Item} {level : Item} (h : level ∈ badLevel? items) :
    level ∈ (items.filter (·.isAbout .level)).getLast? ∧
      level.complaint? = some (.of .invalidInteger [.text level.written, .text level.value]) := by
  obtain ⟨hlast, hbad⟩ := Option.filter_eq_some_iff.1 h
  rw [funext isAbout_level]
  have hnamed : level.isNamed levelNames = true := (List.mem_filter.1 (List.mem_of_getLast? hlast)).2
  have hplace : level.isNamed placeNames = false := by
    rw [← isAbout_place, Bool.eq_false_iff]
    intro hp
    cases topic_unique hp ((isAbout_level level).trans hnamed)
  refine ⟨hlast, ?_⟩
  simp only [Item.complaint?, hplace, hnamed, hbad, Bool.false_and, Bool.true_and, if_true]
  rfl

/-- A complaint that is reported is about the last word on some topic. -/
theorem complaint_reported {conflict : List Diagnostic} (hconflict : ∀ p ∈ conflict, p.id = .notAllowedWith)
    {items : List Item} {last : Option Text} {x : Item} {p : Diagnostic} (hx : x.complaint? = some p)
    (hp : p ∈ problemsAround conflict items last) :
    ∃ t : Topic, ∃ y ∈ (items.filter (·.isAbout t)).getLast?, y.complaint? = some p := by
  -- the other problems are told from complaints by what they are
  have hid : p.id = .invalidValue ∨ p.id = .invalidInteger := (complaint_cases hx).imp And.left And.left
  simp only [problemsAround, List.mem_append, List.mem_map, Option.mem_toList] at hp
  rcases hp with (((⟨_, -, rfl⟩ | ⟨_, -, rfl⟩) | hconf) | ⟨place, hplace, rfl⟩) | ⟨level, hlevel, rfl⟩
  · rcases hid with hid | hid <;> cases hid
  · rcases hid with hid | hid <;> cases hid
  · rw [hconflict p hconf] at hid
    rcases hid with hid | hid <;> cases hid
  · exact ⟨.place, complaint_of_badPlace hplace⟩
  · exact ⟨.level, level, complaint_of_badLevel hlevel⟩

/-- **What a later option overrides might as well not be there**: without it the command line comes to the same.  So a
value that is wrong and overridden is not reported, unless what overrides it in the end is wrong in the same way. -/
theorem resolve_overridden (defaults : Settings) (prog : Text) {front back : List Text} {before later : List Item}
    {last : Option Text} (hfront : Said front before none) (hback : Said back later last) {x : Item} {t : Topic}
    (ht : t ∉ Topic.gathered) (hx : x.isAbout t = true) (hlater : ∃ y ∈ later, y.isAbout t = true) :
    resolve defaults (prog :: (front ++ (x.tokens ++ back))) = resolve defaults (prog :: (front ++ back)) ∧
    ∀ p, x.complaint? = some p → p ∈ (resolve defaults (prog :: (front ++ (x.tokens ++ back)))).reports →
      ∃ y ∈ (later.filter (·.isAbout t)).getLast?, y.complaint? = some p := by
  have hwith : Said (front ++ (x.tokens ++ back)) (before ++ x :: later) last := hfront.append (hback.cons x)
  have hwithout : Said (front ++ back) (before ++ later) last := hfront.append hback
  have hsome : before ++ later ≠ [] := by
    obtain ⟨y, hy, -⟩ := hlater
    exact List.ne_nil_of_mem (List.mem_append_right before hy)
  have hsame := resolve_of_answerAlike defaults prog hwith hwithout
    (List.append_ne_nil_of_right_ne_nil _ (List.cons_ne_nil _ _)) hsome (answerAlike_overridden before ht hx hlater)
  refine ⟨hsame, fun p hp hreported => ?_⟩
  obtain ⟨conflict, hreports, hconflict, -⟩ :=
    resolve_reports defaults (show Said (prog :: (front ++ back)).tail (before ++ later) last from hwithout)
  rw [hsame, hreports] at hreported
  obtain ⟨s, y, hy, hyp⟩ := complaint_reported hconflict hp hreported
  have hys : y.isAbout s = true := (List.mem_filter.1 (List.mem_of_getLast? hy)).2
  obtain rfl : t = s := topic_of_complaint hp hyp hx hys
  exact ⟨y, last_of_later hlater ▸ hy, hyp⟩

/-- A place for the bitcode that is none, overridden by one that is. -/
theorem resolve_overridden_place :
    resolve {} ["rscc", "a.rs", "-s", "xx", "-Iinc", "-bitcode-storage=ar", "-o"] =
      resolve {} ["rscc", "a.rs", "-Iinc", "-bitcode-storage=ar", "-o"] ∧
    .of .invalidValue [.text "-bitcode-storage", .text "xx"] ∉
      (resolve {} ["rscc", "a.rs", "-s", "xx", "-Iinc", "-bitcode-storage=ar", "-o"]).reports := by
  have hfront : Said ["a.rs"] [.input "a.rs" rfl] none := ⟨nofun, rfl⟩
  have hback : Said ["-Iinc", "-bitcode-storage=ar", "-o"] [.includeDir "inc" (by decide), .storage "ar"] (some "-o") :=
    ⟨by decide, rfl⟩
  obtain ⟨hsame, hcomplaint⟩ := resolve_overridden {} "rscc" hfront hback (x := .valued "-s" (by decide) "xx")
    (t := .place) (by decide) (by decide) ⟨.storage "ar", List.mem_cons_of_mem _ List.mem_cons_self, by decide⟩
  refine ⟨hsame, fun hreported => ?_⟩
  obtain ⟨y, hy, hyp⟩ := hcomplaint _ rfl hreported
  cases hy
  cases hyp

end ScriptDriver
