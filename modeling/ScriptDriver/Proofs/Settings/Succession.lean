import ScriptDriver.Proofs.Settings.Problem
import ScriptDriver.Toolchain.Basic
/-!
# Succession — one command line after the other

A command line may start from the settings that another one has left.  Whatever was on the command lines before, and
whatever was reported of them, object files are never asked for, and nothing but dependency files only if these are
wanted.  An output type that dependency files cannot be written along with is left as it is, and so it is reported again
for every command line that leaves it (`resolve_after`).  The same command line again comes to the same
(`resolve_again`).
-/
namespace ScriptDriver

open CommandLine

/-- **Settings that one command line can leave to the next.** -/
structure Settings.Consistent (s : Settings) : Prop where
  noObject : s.outputType ≠ .object
  dependencyType : s.outputType = .dependency → s.withDependencies = true

/-- Dependency files are wanted along with something that has none. -/
def Settings.Conflicting (s : Settings) : Prop :=
  s.withDependencies = true ∧ s.outputType ≠ .bitcode ∧ s.outputType ≠ .dependency

instance (s : Settings) : Decidable s.Conflicting := inferInstanceAs (Decidable (_ ∧ _ ∧ _))

/-- The settings after some command lines, each of which starts from what the one before has left. -/
def Settings.after (s : Settings) (lines : List (List Text)) : Settings :=
  lines.foldl (fun s argv => (resolve s argv).settings) s

/-- How often it is reported that an output type does not go with dependency files. -/
def Resolution.conflicts (r : Resolution) : Nat := r.reports.countP (·.id = .notAllowedWith)

/-! ## One command line -/

/-- An option for an output type asks for one that is neither of object files nor of dependency files. -/
theorem wanted_of_last? {m : Matched} {items : List Item} (hargs : m.args.map Arg.unplaced = items.map Item.arg) {a : Arg}
    (ha : m.last? [.outputGroup] = some a) :
    ∃ wanted, OutputType.ofOption? a.id = some wanted ∧ wanted ≠ .object ∧ wanted ≠ .dependency := by
  have htype := last?_items hargs countsAs_type
  cases hitem : lastNamed typeNames items with
  | none =>
    rw [ha, hitem] at htype
    cases htype
  | some type =>
    rw [ha, hitem] at htype
    obtain ⟨wanted, hwanted, hobject, hdependency, -⟩ := type_of_last hitem
    rw [← Option.some.inj htype] at hwanted
    exact ⟨wanted, hwanted, hobject, hdependency⟩

theorem filled_consistent {defaults : Settings} (h : defaults.Consistent) {m : Matched} {items : List Item}
    (hargs : m.args.map Arg.unplaced = items.map Item.arg) : (defaults.filled m).Consistent := by
  have htype := filled_outputType defaults m
  have hmode := filled_withDependencies defaults m
  cases hlast : m.last? [.outputGroup] with
  | some a =>
    -- the last output type counts, whatever the mode
    obtain ⟨wanted, hwanted, hobject, hdependency⟩ := wanted_of_last? hargs hlast
    rw [hlast, Option.bind_some, hwanted, Option.some_or, Option.getD_some] at htype
    exact ⟨htype ▸ hobject, fun hd => absurd (htype ▸ hd) hdependency⟩
  | none =>
    rw [hlast, Option.bind_none, Option.none_or] at htype
    cases hgroup : m.last? [.dependencyGroup] with
    | none =>
      rw [hgroup, Option.map_none, Option.getD_none] at htype
      rw [hgroup, Option.isSome_none, Bool.or_false] at hmode
      exact ⟨htype ▸ h.noObject, fun hd => hmode ▸ h.dependencyType (htype ▸ hd)⟩
    | some a =>
      rw [hgroup, Option.map_some, Option.getD_some] at htype
      rw [hgroup, Option.isSome_some, Bool.or_true] at hmode
      refine ⟨?_, fun _ => hmode⟩
      rw [htype]
      split <;> exact OutputType.noConfusion

theorem resolve_consistent {defaults : Settings} (h : defaults.Consistent) (argv : List Text) :
    (resolve defaults argv).settings.Consistent := by
  rcases resolve_cases defaults argv with ⟨-, hr⟩ | ⟨m, hm, hr⟩
  · rw [hr]
    exact h
  · obtain ⟨items, last, hsaid⟩ := exists_said argv.tail
    obtain ⟨m', hm', -, hargs, -⟩ := read_of_said hsaid
    obtain rfl : m' = m := Except.ok.inj (hm'.symm.trans hm)
    obtain ⟨n, hn⟩ := ofMatched_settings defaults m'
    obtain ⟨hobject, hdependency⟩ := filled_consistent h hargs
    rw [hr, hn]
    exact ⟨hobject, hdependency⟩

/-- **A conflict is reported once, and by nothing else than the settings that are left.** -/
theorem conflicts_ofMatched (defaults : Settings) (m : Matched) : (Resolution.ofMatched defaults m).conflicts =
    if (defaults.filled m).withDependencies && !(defaults.filled m).outputType.allowsDependencies then 1 else 0 := by
  have hmissing : m.missingReports.countP (·.id = .notAllowedWith) = 0 := by
    unfold Matched.missingReports
    cases m.shortage <;> rfl
  have hunknown : m.unknownReports.countP (·.id = .notAllowedWith) = 0 := by
    rw [Matched.unknownReports, List.countP_map, List.countP_eq_zero]
    exact fun a _ => Bool.false_ne_true
  have hconflict : (m.conflictReports (defaults.filled m)).countP (·.id = .notAllowedWith) =
      if (defaults.filled m).withDependencies && !(defaults.filled m).outputType.allowsDependencies then 1 else 0 := by
    unfold Matched.conflictReports
    split <;> rfl
  have hstorage : m.storageReports.countP (·.id = .notAllowedWith) = 0 := by
    unfold Matched.storageReports
    dsimp only
    split <;> rfl
  have hlevel : m.levelReports.countP (·.id = .notAllowedWith) = 0 := by
    unfold Matched.levelReports
    split <;> rfl
  rw [Resolution.conflicts, ofMatched_reports]
  simp only [List.countP_append, hmissing, hunknown, hconflict, hstorage, hlevel, Nat.zero_add, Nat.add_zero]

theorem resolve_conflicts (defaults : Settings) {argv : List Text} (h : 2 ≤ argv.length) :
    (resolve defaults argv).conflicts = if (resolve defaults argv).settings.Conflicting then 1 else 0 := by
  rcases resolve_cases defaults argv with ⟨htail, -⟩ | ⟨m, -, hr⟩
  · have hlength := List.length_tail (l := argv)
    rw [htail, List.length_nil] at hlength
    omega
  · obtain ⟨n, hn⟩ := ofMatched_settings defaults m
    rw [hr, conflicts_ofMatched, hn]
    refine if_congr ?_ rfl rfl
    unfold Settings.Conflicting OutputType.allowsDependencies
    simp

theorem resolve_short (defaults : Settings) {argv : List Text} (h : argv.length ≤ 1) :
    resolve defaults argv = ⟨defaults, [], .ok []⟩ :=
  resolve_of_tail_nil defaults (List.eq_nil_of_length_eq_zero (by rw [List.length_tail]; omega))

/-! ## The same command line again -/

theorem lastValue_again (m : Matched) (id : OptionId) (default : Text) :
    m.lastValue id (m.lastValue id default) = m.lastValue id default := by
  unfold Matched.lastValue
  cases m.last? [id] <;> rfl

/-- The level plays no part in filling in the rest. -/
theorem filled_withLevel (s : Settings) (m : Matched) (n : Int) :
    ({ s with targetApi := n } : Settings).filled m = { s.filled m with targetApi := n } := by
  unfold Settings.filled
  cases m.last? [.dependencyGroup] <;> cases m.last? [.outputGroup] <;> rfl

theorem getD_again {α : Type} (o : Option α) (default : α) : o.getD (o.getD default) = o.getD default := by
  cases o <;> rfl

/-- **Filling in again changes nothing**: what was said is said again, and the rest is as it was left. -/
theorem filled_again (s : Settings) (m : Matched) : (s.filled m).filled m = s.filled m := by
  unfold Settings.filled
  cases m.last? [.dependencyGroup] <;> cases m.last? [.outputGroup] <;>
    simp [Settings.withMode, Settings.withType, lastValue_again, getD_again]

theorem ofMatched_again (s : Settings) (m : Matched) :
    Resolution.ofMatched (Resolution.ofMatched s m).settings m = Resolution.ofMatched s m := by
  have hfilled : (Resolution.ofMatched s m).settings.filled m = (Resolution.ofMatched s m).settings := by
    obtain ⟨n, hn⟩ := ofMatched_settings s m
    rw [hn, filled_withLevel, filled_again]
  -- what is reported and what becomes of the level are read off the settings once they are filled in
  unfold Resolution.ofMatched at hfilled ⊢
  cases hlevel : m.lastInteger .targetApi with
  | integer n =>
    simp only [hlevel] at hfilled ⊢
    rw [hfilled]
    rfl
  | _ =>
    simp only [hlevel] at hfilled ⊢
    rw [hfilled]

/-- **The same command line again comes to the same**, whatever the settings it started from: the settings that it has
left, the inputs and the problems. -/
theorem resolve_again (s : Settings) (argv : List Text) : resolve (resolve s argv).settings argv = resolve s argv := by
  by_cases htail : argv.tail = []
  · rw [resolve_of_tail_nil s htail, resolve_of_tail_nil s htail]
  · obtain ⟨m, hm, -⟩ := OptionTable.read_of_closed standard_closed argv.tail
    rw [resolve_of_read s htail hm, resolve_of_read _ htail hm, ofMatched_again]

/-! ## One after the other -/

theorem after_consistent : ∀ (lines : List (List Text)) {s : Settings}, s.Consistent → (s.after lines).Consistent
  | [], _, h => h
  | argv :: lines, _, h => after_consistent lines (resolve_consistent h argv)

/-- **What comes of a command line** that starts from the settings `s`. -/
structure Resolution.Follows (r : Resolution) (s : Settings) (argv : List Text) : Prop where
  noObject : r.settings.outputType ≠ .object
  dependencyType : r.settings.outputType = .dependency → r.settings.withDependencies = true
  conflicting : 2 ≤ argv.length → r.settings.Conflicting → r.conflicts = 1
  compatible : 2 ≤ argv.length → ¬ r.settings.Conflicting → r.conflicts = 0
  unchanged : argv.length ≤ 1 → r = ⟨s, [], .ok []⟩

/-- **Command lines one after the other stay consistent**, whatever the toolchain they start from: none leaves settings
that ask for object files, or for nothing but dependency files without wanting these, and every one that leaves a
conflict reports it, once, whichever it was that caused it. -/
theorem resolve_after (t : Toolchain) (earlier : List (List Text)) (argv : List Text) :
    (resolve (t.settings.after earlier) argv).Follows (t.settings.after earlier) argv := by
  have hstart : t.settings.Consistent := ⟨OutputType.noConfusion, OutputType.noConfusion⟩
  have hconsistent := resolve_consistent (after_consistent earlier hstart) argv
  constructor
  case noObject => exact hconsistent.noObject
  case dependencyType => exact hconsistent.dependencyType
  case conflicting =>
    intro hlength hconflict
    rw [resolve_conflicts _ hlength, if_pos hconflict]
  case compatible =>
    intro hlength hconflict
    rw [resolve_conflicts _ hlength, if_neg hconflict]
  case unchanged => exact resolve_short _

end ScriptDriver
