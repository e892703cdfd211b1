import ScriptDriver.Proofs.Settings.Succession
/-!
# Totality — whatever is on a command line is dealt with

Resolving does not get stuck on what a command line looks like: what is wrong is reported, and the settings and the inputs
are there all the same.  The one thing it gives up on is a last level that is an integer of more digits than integers are
read with (`resolve_dealsWith_iff`).
-/
namespace ScriptDriver

open CommandLine

/-- **A command line that has been dealt with**, from the settings `s` on: its inputs are there, all that is wrong with it
is reported, and what is reported can be said. -/
structure Resolution.DealsWith (r : Resolution) (s : Settings) (argv : List Text) (items : List Item)
    (last : Option Text) : Prop where
  returned : r.inputs = .ok (items.filterMap Item.input?)
  noticed : ∀ p ∈ problems items last, p ∈ r.reports
  compatible : 2 ≤ argv.length → r.settings.Conflicting → ∃ p ∈ r.reports, p.id = .notAllowedWith
  level : ∀ level ∈ lastNamed levelNames items,
    (Decimal.isInteger level.value = true ∧ r.settings.targetApi = Decimal.denoted level.value) ∨
    (r.settings.targetApi = s.targetApi ∧ .of .invalidInteger [.text level.written, .text level.value] ∈ r.reports)
  usualLevel : lastNamed levelNames items = none → r.settings.targetApi = s.targetApi
  worded : ∀ p ∈ r.reports, ∃ t, p.message = .ok t
  delivered : ∀ engine : Diagnostic.Engine, ∃ engine', engine.addAll r.reports = (engine', none) ∧
    engine'.reported = engine.reported ++ r.reports

/-! ## What is always reported -/

/-- **Every problem with a command line is reported**, wherever the settings come from. -/
theorem problems_reported (s : Settings) {argv : List Text} {items : List Item} {last : Option Text}
    (hsaid : Said argv.tail items last) : ∀ p ∈ problems items last, p ∈ (resolve s argv).reports := by
  obtain ⟨conflict, hreports, -, hconflict⟩ := resolve_reports s hsaid
  intro p hp
  rw [hreports]
  simp only [problems, problemsAround, List.mem_append] at hp ⊢
  refine hp.imp (Or.imp (Or.imp id fun hp => ?_) id) id
  obtain ⟨pair, hpair, rfl⟩ := List.mem_map.1 hp
  exact hconflict pair (Option.mem_toList.1 hpair)

theorem conflict_reported (s : Settings) {argv : List Text} (hlength : 2 ≤ argv.length)
    (h : (resolve s argv).settings.Conflicting) : ∃ p ∈ (resolve s argv).reports, p.id = .notAllowedWith := by
  have hcount := resolve_conflicts s hlength
  rw [if_pos h, Resolution.conflicts] at hcount
  obtain ⟨p, hp, hid⟩ := List.countP_pos_iff.1 (hcount.symm ▸ Nat.one_pos)
  exact ⟨p, hp, of_decide_eq_true hid⟩

/-! ## The level -/

theorem Settings.filled_targetApi (s : Settings) (m : Matched) : (s.filled m).targetApi = s.targetApi := by
  unfold filled
  cases m.last? [.dependencyGroup] <;> cases m.last? [.outputGroup] <;> rfl

/-- **What becomes of the last level**, and of the inputs with it. -/
inductive Resolution.Level (r : Resolution) (s : Settings) (items : List Item) : Prop where
  | unsaid : lastNamed levelNames items = none → r.settings.targetApi = s.targetApi →
    r.inputs = .ok (items.filterMap Item.input?) → Level r s items
  | refused {level : Item} : lastNamed levelNames items = some level → Decimal.isInteger level.value = false →
    r.settings.targetApi = s.targetApi → r.inputs = .ok (items.filterMap Item.input?) → Level r s items
  | taken {level : Item} : lastNamed levelNames items = some level → Decimal.isInteger level.value = true →
    (Decimal.split level.value).2.length ≤ Decimal.digitLimit → r.settings.targetApi = Decimal.denoted level.value →
    r.inputs = .ok (items.filterMap Item.input?) → Level r s items
  /-- Nothing is returned. -/
  | givenUp {level : Item} {e : ResolveFault} : lastNamed levelNames items = some level →
    Decimal.isInteger level.value = true → Decimal.digitLimit < (Decimal.split level.value).2.length →
    r.inputs = .error e → Level r s items

theorem ofMatched_level (s : Settings) {m : Matched} {items : List Item}
    (hargs : m.args.map Arg.unplaced = items.map Item.arg) : (Resolution.ofMatched s m).Level s items := by
  have hinputs := inputs_items hargs
  rcases level_cases hargs with ⟨hlevel, hread⟩ | ⟨level, a, hlevel, hinteger, hread, -⟩ |
    ⟨level, hlevel, hinteger, hshort, hread⟩ | ⟨level, e, hlevel, hinteger, hlong, hread⟩ <;>
    simp only [Resolution.ofMatched, hread, hinputs]
  · exact .unsaid hlevel (s.filled_targetApi m) rfl
  · exact .refused hlevel hinteger (s.filled_targetApi m) rfl
  · exact .taken hlevel hinteger hshort rfl rfl
  · exact .givenUp hlevel hinteger hlong rfl

theorem resolve_level (s : Settings) {argv : List Text} {items : List Item} {last : Option Text}
    (hsaid : Said argv.tail items last) : (resolve s argv).Level s items := by
  rcases resolve_cases s argv with ⟨htail, h⟩ | ⟨m, hm, h⟩
  · rw [htail] at hsaid
    obtain ⟨rfl, rfl⟩ := said_nil hsaid
    rw [h]
    exact .unsaid rfl rfl rfl
  · obtain ⟨m', hm', -, hargs, -⟩ := read_of_said hsaid
    obtain rfl : m' = m := Except.ok.inj (hm'.symm.trans hm)
    rw [h]
    exact ofMatched_level s hargs

/-! ## What is dealt with -/

/-- A level that is set, kept or refused leaves nothing else to be dealt with. -/
theorem dealsWith_of_returned (s : Settings) {argv : List Text} {items : List Item} {last : Option Text}
    (hsaid : Said argv.tail items last) (hreturned : (resolve s argv).inputs = .ok (items.filterMap Item.input?)) :
    (resolve s argv).DealsWith s argv items last := by
  have hcomplete : ∀ p ∈ (resolve s argv).reports, p.Complete := fun p hp => (resolve_ofCommandLine s argv p hp).complete
  constructor
  case returned => exact hreturned
  case noticed => exact problems_reported s hsaid
  case compatible => exact conflict_reported s
  case worded => exact fun p hp => Diagnostic.message_of_complete (hcomplete p hp)
  case delivered => exact fun engine => engine.addAll_of_complete _ hcomplete
  case level =>
    intro level hlevel
    cases resolve_level s hsaid with
    | unsaid hl =>
      rw [hl] at hlevel
      cases hlevel
    | refused hl hinteger hkept =>
      obtain rfl := Option.mem_unique hlevel hl
      have hbad : level ∈ badLevel? items := Option.filter_eq_some_iff.2 ⟨hl, by rw [hinteger]; rfl⟩
      have hproblem : .of .invalidInteger [.text level.written, .text level.value] ∈ problems items last :=
        List.mem_append_right _ (List.mem_map.2 ⟨level, Option.mem_toList.2 hbad, rfl⟩)
      exact .inr ⟨hkept, problems_reported s hsaid _ hproblem⟩
    | taken hl hinteger _ hset =>
      obtain rfl := Option.mem_unique hlevel hl
      exact .inl ⟨hinteger, hset⟩
    | givenUp _ _ _ hfailed =>
      rw [hreturned] at hfailed
      cases hfailed
  case usualLevel =>
    intro hnone
    cases resolve_level s hsaid with
    | unsaid _ hkept => exact hkept
    | refused hl | taken hl | givenUp hl =>
      rw [hnone] at hl
      cases hl

theorem resolve_returned_iff (s : Settings) {argv : List Text} {items : List Item} {last : Option Text}
    (hsaid : Said argv.tail items last) : (resolve s argv).inputs = .ok (items.filterMap Item.input?) ↔
      ∀ level ∈ lastValueNamed levelNames items, Decimal.isInteger level = true →
        (Decimal.split level).2.length ≤ Decimal.digitLimit := by
  constructor
  · intro hreturned value hvalue hinteger
    obtain ⟨level, hlevel, rfl⟩ := Option.map_eq_some_iff.1 hvalue
    cases resolve_level s hsaid with
    | unsaid hl =>
      rw [hlevel] at hl
      cases hl
    | refused hl hno =>
      obtain rfl := Option.mem_unique hlevel hl
      rw [hno] at hinteger
      cases hinteger
    | taken hl _ hfew =>
      obtain rfl := Option.mem_unique hlevel hl
      exact hfew
    | givenUp _ _ _ hfailed =>
      rw [hreturned] at hfailed
      cases hfailed
  · intro hshort
    cases resolve_level s hsaid with
    | unsaid _ _ hreturned | refused _ _ _ hreturned | taken _ _ _ _ hreturned => exact hreturned
    | givenUp hl hinteger hlong =>
      exact absurd (hshort _ (Option.map_eq_some_iff.2 ⟨_, hl, rfl⟩) hinteger) (Nat.not_le.2 hlong)

/-- **A command line is dealt with exactly if its last level is no integer with too many digits**, whatever else is on it
and wherever the settings come from. -/
theorem resolve_dealsWith_iff (s : Settings) (argv : List Text) :
    (∃ items last, Said argv.tail items last) ∧ ∀ items last, Said argv.tail items last →
      ((resolve s argv).DealsWith s argv items last ↔
        ∀ level ∈ lastValueNamed levelNames items, Decimal.isInteger level = true →
          (Decimal.split level).2.length ≤ Decimal.digitLimit) :=
  ⟨exists_said _, fun _ _ hsaid =>
    ⟨fun h => (resolve_returned_iff s hsaid).1 h.returned,
      fun hshort => dealsWith_of_returned s hsaid ((resolve_returned_iff s hsaid).2 hshort)⟩⟩

/-- Settings that ask for dependency files, and a command line with an output type that has none, an unknown option, a
place that is none, a level and an option without its value. -/
def wanting : Settings := { withDependencies := true, targetApi := 14 }

def busyLine : List Text := ["rscc", "-bogus", "-S", "sum.rs", "-s", "xx", "-target-api", "-007", "-o"]

def busyItems : List Item :=
  [.unknown "-bogus" ⟨rfl, by decide, by decide, by decide, by decide⟩, .flag "-S" (by decide), .input "sum.rs" rfl,
    .valued "-s" (by decide) "xx", .valued "-target-api" (by decide) "-007"]

theorem resolve_dealsWith_busy : Said busyLine.tail busyItems (some "-o") ∧
    (resolve wanting busyLine).DealsWith wanting busyLine busyItems (some "-o") := by
  have hsaid : Said busyLine.tail busyItems (some "-o") := ⟨by decide, rfl⟩
  refine ⟨hsaid, ((resolve_dealsWith_iff wanting busyLine).2 _ _ hsaid).2 fun level hlevel _ => ?_⟩
  cases hlevel
  decide

/-- A level with one digit more than integers are read with. -/
def overlongLevel : Text := List.replicate (Decimal.digitLimit + 1) (.char '1')

theorem overlongLevel_digits : (Decimal.split overlongLevel).2 = overlongLevel := rfl

theorem overlongLevel_isInteger : Decimal.isInteger overlongLevel = true := by
  rw [Decimal.isInteger, overlongLevel_digits, overlongLevel, List.all_replicate]
  rfl

def overlongLine : List Text := ["rscc", "-target-api", overlongLevel]

/-- **Not every command line is dealt with.** -/
theorem overlongLine_not_dealtWith :
    ∃ items last, Said overlongLine.tail items last ∧ ¬ (resolve {} overlongLine).DealsWith {} overlongLine items last := by
  have hsaid : Said overlongLine.tail [.valued "-target-api" (by decide) overlongLevel] none := ⟨nofun, rfl⟩
  refine ⟨_, _, hsaid, fun h => ?_⟩
  have hshort := (resolve_returned_iff {} hsaid).1 h.returned overlongLevel rfl overlongLevel_isInteger
  rw [overlongLevel_digits, overlongLevel, List.length_replicate] at hshort
  exact absurd hshort (Nat.not_succ_le_self _)

end ScriptDriver
