import ScriptDriver.Backend.Rule
/-!
# Legibility — dependency rules read back

A rule is read by cutting it at the spaces that have no backslash before them.  The input comes back as it was, and so do
the targets, but for one thing: a backslash at the end of a target stands before the space that follows it, and the target
is read as one with the next (`read_rule`).  So two lists of targets have the same rule exactly if they are the same when
all such targets are merged, and lists without them can be told apart (`rule_legible`).
-/
namespace ScriptDriver.Backend

/-! ## Reading a rule -/

/-- Words with a text put before the first of them. -/
def prepended (t : Text) : List Text → List Text
  | [] => [t]
  | word :: words => (t ++ word) :: words

/-- The words of a line: a space belongs to a word if a backslash stands before it, and ends one if not. -/
def escapedWords : Text → List Text
  | [] => [[]]
  | .char '\\' :: .char ' ' :: t => prepended [.char ' '] (escapedWords t)
  | .char ' ' :: t => [] :: escapedWords t
  | g :: t => prepended [g] (escapedWords t)

/-- The targets and the input among the words of a rule: a colon ends the targets, and a line end the rule. -/
def sides (words : List Text) : List Text × Text :=
  match words.reverse with
  | input :: target :: targets => (targets.reverse ++ [target.dropLast], input.dropLast)
  | _ => ([], [])

def readRule (t : Text) : List Text × Text := sides (escapedWords t)

/-! ## Targets that are read as one -/

def EndsInBackslash (t : Text) : Prop := t.getLast? = some (.char '\\')

instance (t : Text) : Decidable (EndsInBackslash t) := inferInstanceAs (Decidable (_ = _))

/-- Targets as they are read: one that ends in a backslash has a space in its place, and the next target after it. -/
def merged : List Text → List Text
  | [] => []
  | target :: targets =>
    match merged targets with
    | [] => [target]
    | next :: rest =>
      if EndsInBackslash target then (target.dropLast ++ .char ' ' :: next) :: rest else target :: next :: rest

/-- **Targets that stay apart**: none but the last ends in a backslash. -/
def Apart (targets : List Text) : Prop := ∀ target ∈ targets.dropLast, ¬ EndsInBackslash target

instance (targets : List Text) : Decidable (Apart targets) := List.decidableBAll _ _

/-! ## Words -/

theorem prepended_append (s t : Text) (words : List Text) :
    prepended s (prepended t words) = prepended (s ++ t) words := by
  cases words <;> simp [prepended]

theorem escapedWords_escape (t : Text) :
    escapedWords (.char '\\' :: .char ' ' :: t) = prepended [.char ' '] (escapedWords t) := by
  rw [escapedWords]

theorem escapedWords_space (t : Text) : escapedWords (.char ' ' :: t) = [] :: escapedWords t := by
  rw [escapedWords]

theorem escapedWords_plain {g : Glyph} (t : Text) (hspace : g ≠ .char ' ')
    (hescape : g = .char '\\' → t.head? ≠ some (.char ' ')) :
    escapedWords (g :: t) = prepended [g] (escapedWords t) := by
  rw [escapedWords]
  · rintro t' rfl rfl
    exact hescape rfl rfl
  · exact hspace

theorem escapeSpaces_cons (g : Glyph) (t : Text) :
    escapeSpaces (g :: t) = (if g = .char ' ' then [.char '\\', .char ' '] else [g]) ++ escapeSpaces t := by
  by_cases h : g = .char ' ' <;> simp [escapeSpaces, Glyph.is, h, Text.ofString]

theorem escapeSpaces_append (s t : Text) : escapeSpaces (s ++ t) = escapeSpaces s ++ escapeSpaces t :=
  List.flatMap_append

/-- No escaped path begins with a space. -/
theorem escapeSpaces_head {path : Text} (given : path ≠ []) (rest : Text) :
    (escapeSpaces path ++ rest).head? ≠ some (.char ' ') := by
  cases path with
  | nil => exact absurd rfl given
  | cons g path =>
    rw [escapeSpaces_cons]
    by_cases h : g = .char ' ' <;> simp [h]

theorem prepended_ne_nil (t : Text) (words : List Text) : prepended t words ≠ [] := by
  cases words <;> simp [prepended]

theorem escapedWords_ne_nil (t : Text) : escapedWords t ≠ [] := by
  unfold escapedWords
  split
  · simp
  · exact prepended_ne_nil _ _
  · simp
  · exact prepended_ne_nil _ _

theorem prepended_nil {words : List Text} (h : words ≠ []) : prepended [] words = words := by
  cases words with
  | nil => exact absurd rfl h
  | cons => rfl

/-- **An escaped path is read back**, unless it ends in a backslash and a space follows. -/
theorem escapedWords_path : ∀ (path rest : Text), (EndsInBackslash path → rest.head? ≠ some (.char ' ')) →
    escapedWords (escapeSpaces path ++ rest) = prepended path (escapedWords rest)
  | [], rest, _ => (prepended_nil (escapedWords_ne_nil rest)).symm
  | g :: path, rest, h => by
    have hrest : EndsInBackslash path → rest.head? ≠ some (.char ' ') := by
      intro hends
      refine h ?_
      cases path with
      | nil => cases hends
      | cons => exact hends
    have ih := escapedWords_path path rest hrest
    rw [escapeSpaces_cons, List.append_assoc]
    by_cases hg : g = .char ' '
    · rw [if_pos hg, List.cons_append, List.singleton_append, escapedWords_escape, ih, prepended_append, hg]
      rfl
    · rw [if_neg hg, List.singleton_append, escapedWords_plain _ hg, ih, prepended_append, List.singleton_append]
      -- a backslash escapes only what comes right after it
      rintro rfl
      by_cases hpath : path = []
      · subst hpath
        exact h rfl
      · exact escapeSpaces_head hpath rest

/-! ## Rules -/

/-- Two lists of words of which the last of the one and the first of the other are one word. -/
def linked : List Text → List Text → List Text
  | [], words => words
  | [word], words => prepended word words
  | word :: more, words => word :: linked more words

theorem linked_cons {words : List Text} (h : words ≠ []) (word : Text) (rest : List Text) :
    linked (word :: words) rest = word :: linked words rest := by
  cases words with
  | nil => exact absurd rfl h
  | cons => rfl

theorem prepended_linked (t word : Text) (words rest : List Text) :
    prepended t (linked (word :: words) rest) = linked ((t ++ word) :: words) rest := by
  cases words with
  | nil => exact prepended_append t word rest
  | cons => rfl

theorem rulePaths_cons (path : Text) {paths : List Text} (h : paths ≠ []) :
    rulePaths (path :: paths) = escapeSpaces path ++ .char ' ' :: rulePaths paths := by
  cases paths with
  | nil => exact absurd rfl h
  | cons next paths => simp [rulePaths, Text.joinWith, List.intercalate, Text.ofString]

theorem rulePaths_single (path : Text) : rulePaths [path] = escapeSpaces path := by
  simp [rulePaths, Text.joinWith, List.intercalate]

/-- A text that ends in a backslash is escaped, with a space after it, as the text with a space in its place. -/
theorem escapeSpaces_of_ends {t : Text} (h : EndsInBackslash t) :
    escapeSpaces t ++ [.char ' '] = escapeSpaces (t.dropLast ++ [.char ' ']) := by
  obtain ⟨front, rfl⟩ := List.getLast?_eq_some_iff.1 h
  rw [List.dropLast_concat, escapeSpaces_append, escapeSpaces_append, List.append_assoc]
  rfl

theorem merged_ne_nil {targets : List Text} (h : targets ≠ []) : merged targets ≠ [] := by
  cases targets with
  | nil => exact absurd rfl h
  | cons target targets =>
    unfold merged
    cases merged targets with
    | nil => simp
    | cons next rest =>
      dsimp only
      split <;> simp

/-- **Targets are read as they are merged**, up to what follows them. -/
theorem escapedWords_targets {rest : Text} (hrest : rest.head? ≠ some (.char ' ')) : ∀ {targets : List Text}, targets ≠ [] →
    escapedWords (rulePaths targets ++ rest) = linked (merged targets) (escapedWords rest)
  | [], h => absurd rfl h
  | [target], _ => by
    rw [rulePaths_single, escapedWords_path target rest fun _ => hrest]
    rfl
  | target :: next :: targets, _ => by
    have ih := escapedWords_targets hrest (List.cons_ne_nil next targets)
    rw [rulePaths_cons target (List.cons_ne_nil next targets), merged]
    cases hmerged : merged (next :: targets) with
    | nil => exact absurd hmerged (merged_ne_nil (List.cons_ne_nil _ _))
    | cons first more =>
      rw [hmerged] at ih
      dsimp only
      by_cases hends : EndsInBackslash target
      · have hspace : ¬ EndsInBackslash (target.dropLast ++ [.char ' ']) := by simp [EndsInBackslash]
        have hescaped := escapedWords_path (target.dropLast ++ [.char ' ']) (rulePaths (next :: targets) ++ rest)
          fun h => absurd h hspace
        rw [← escapeSpaces_of_ends hends, ih, prepended_linked] at hescaped
        simpa [hends] using hescaped
      · rw [if_neg hends, linked_cons (List.cons_ne_nil _ _), ← ih, List.append_assoc, List.cons_append,
          escapedWords_path target _ fun h => absurd h hends, escapedWords_space, prepended, List.append_nil]

theorem linked_concat (last word : Text) (words : List Text) : ∀ front : List Text,
    linked (front ++ [last]) (word :: words) = front ++ (last ++ word) :: words
  | [] => rfl
  | target :: front => by
    rw [List.cons_append, linked_cons (by simp), linked_concat last word words front, List.cons_append]

/-- What follows the targets of a rule. -/
def ruleEnd (input : Text) : Text := .char ':' :: .char ' ' :: (escapeSpaces input ++ [.char '\n'])

theorem rule_eq (targets : List Text) (input : Text) : rule targets [input] = rulePaths targets ++ ruleEnd input := by
  simp [rule, ruleEnd, rulePaths_single, Text.ofString]

theorem escapedWords_ruleEnd (input : Text) :
    escapedWords (ruleEnd input) = [[.char ':'], input ++ [.char '\n']] := by
  have hline : escapedWords [.char '\n'] = [[.char '\n']] := rfl
  rw [ruleEnd, escapedWords_plain _ (by decide) fun h => absurd h (by decide), escapedWords_space,
    escapedWords_path input _ fun _ => by simp, hline]
  rfl

/-- **What is read back from a rule**: its input, and its targets as they are merged. -/
theorem read_rule {targets : List Text} (given : targets ≠ []) (input : Text) :
    readRule (rule targets [input]) = (merged targets, input) := by
  have hcolon : (ruleEnd input).head? ≠ some (.char ' ') := by simp [ruleEnd]
  have hwords := escapedWords_targets hcolon given
  rw [escapedWords_ruleEnd] at hwords
  rcases List.eq_nil_or_concat (merged targets) with hnil | ⟨front, last, hmerged⟩
  · exact absurd hnil (merged_ne_nil given)
  · rw [hmerged, List.concat_eq_append, linked_concat] at hwords
    rw [readRule, rule_eq, hwords, hmerged]
    simp [sides]

/-! ## Rules that are the same -/

theorem rulePaths_merged : ∀ targets : List Text, rulePaths (merged targets) = rulePaths targets
  | [] => rfl
  | [target] => rfl
  | target :: next :: targets => by
    have ih := rulePaths_merged (next :: targets)
    rw [rulePaths_cons target (List.cons_ne_nil next targets), ← ih, merged]
    cases hmerged : merged (next :: targets) with
    | nil => exact absurd hmerged (merged_ne_nil (List.cons_ne_nil _ _))
    | cons first more =>
      dsimp only
      by_cases hends : EndsInBackslash target
      · have hescaped : escapeSpaces (target.dropLast ++ .char ' ' :: first) =
            escapeSpaces target ++ .char ' ' :: escapeSpaces first := by
          rw [← List.singleton_append, ← List.append_assoc, escapeSpaces_append, ← escapeSpaces_of_ends hends,
            List.append_assoc, List.singleton_append]
        rw [if_pos hends]
        cases more with
        | nil => rw [rulePaths_single, rulePaths_single, hescaped]
        | cons last more =>
          rw [rulePaths_cons _ (List.cons_ne_nil _ _), rulePaths_cons _ (List.cons_ne_nil _ _), hescaped]
          simp
      · rw [if_neg hends, rulePaths_cons target (List.cons_ne_nil first more)]

/-- **Rules are the same exactly if their inputs are, and their targets when they are merged.** -/
theorem rule_eq_iff {targets targets' : List Text} (given : targets ≠ []) (given' : targets' ≠ []) (input input' : Text) :
    rule targets [input] = rule targets' [input'] ↔ merged targets = merged targets' ∧ input = input' := by
  constructor
  · intro h
    have hread := read_rule given' input'
    rw [← h, read_rule given input] at hread
    exact Prod.mk.inj hread
  · rintro ⟨hmerged, rfl⟩
    rw [rule_eq, rule_eq, ← rulePaths_merged targets, hmerged, rulePaths_merged]

/-! ## Targets that stay apart -/

theorem apart_cons (target next : Text) (targets : List Text) :
    Apart (target :: next :: targets) ↔ ¬ EndsInBackslash target ∧ Apart (next :: targets) := by
  simp [Apart]

theorem merged_of_apart : ∀ {targets : List Text}, Apart targets → merged targets = targets
  | [], _ => rfl
  | [_], _ => rfl
  | target :: next :: targets, h => by
    obtain ⟨hplain, hrest⟩ := (apart_cons target next targets).1 h
    rw [merged, merged_of_apart hrest]
    exact if_neg hplain

/-- A target that takes in the next one ends as that one does, or in a space. -/
theorem endsInBackslash_joined {front next : Text} : EndsInBackslash (front ++ .char ' ' :: next) ↔ EndsInBackslash next := by
  unfold EndsInBackslash
  cases next <;> simp

theorem merged_apart : ∀ targets : List Text, Apart (merged targets)
  | [] => nofun
  | target :: targets => by
    have ih := merged_apart targets
    unfold merged
    cases hmerged : merged targets with
    | nil => exact nofun
    | cons next rest =>
      rw [hmerged] at ih
      dsimp only
      by_cases hends : EndsInBackslash target
      · rw [if_pos hends]
        cases rest with
        | nil => exact nofun
        | cons last rest =>
          rw [apart_cons] at ih ⊢
          exact ⟨fun h => ih.1 (endsInBackslash_joined.1 h), ih.2⟩
      · rw [if_neg hends, apart_cons]
        exact ⟨hends, ih⟩

theorem nil_not_mem_merged : ∀ {targets : List Text}, [] ∉ targets → [] ∉ merged targets
  | [], h => h
  | target :: targets, h => by
    have ih := nil_not_mem_merged fun hmem => h (List.mem_cons_of_mem target hmem)
    unfold merged
    cases hmerged : merged targets with
    | nil => simpa using fun heq : [] = target => h (heq ▸ List.mem_cons_self)
    | cons next rest =>
      rw [hmerged] at ih
      dsimp only
      split
      · simp_all
      · simp_all

/-- **Which rules can be told apart.**  A rule tells its input, and its targets as they are merged; it is the rule of no other
list of targets that stay apart exactly if its own targets do. -/
theorem rule_legible {targets : List Text} (given : targets ≠ []) (named : [] ∉ targets) (input : Text) :
    readRule (rule targets [input]) = (merged targets, input) ∧
    (∀ targets' : List Text, targets' ≠ [] → ∀ input',
      (rule targets [input] = rule targets' [input'] ↔ merged targets = merged targets' ∧ input = input')) ∧
    (Apart targets ↔ ∀ targets' : List Text, targets' ≠ [] → [] ∉ targets' → Apart targets' → ∀ input',
      rule targets [input] = rule targets' [input'] → targets = targets' ∧ input = input') := by
  refine ⟨read_rule given input, fun targets' given' input' => rule_eq_iff given given' input input', ?_, ?_⟩
  · intro hapart targets' given' _ hapart' input' h
    have hmerged := (rule_eq_iff given given' input input').1 h
    rwa [merged_of_apart hapart, merged_of_apart hapart'] at hmerged
  · intro hunique
    have happart := merged_apart targets
    have hself : merged (merged targets) = merged targets := merged_of_apart happart
    have hsame := (rule_eq_iff given (merged_ne_nil given) input input).2 ⟨hself.symm, rfl⟩
    have htargets := (hunique _ (merged_ne_nil given) (nil_not_mem_merged named) happart input hsame).1
    rw [htargets]
    exact happart

/-- Of these targets the second ends in a backslash, the third has one before a space, and the last may end in one. -/
def slashedTargets : List Text := ["sum.bc", "old\\", "a\\ b", "c:\\"]

def joinedTargets : List Text := ["sum.bc", "old a\\ b", "c:\\"]

theorem rule_legible_slashed : slashedTargets ≠ [] ∧ [] ∉ slashedTargets ∧ ¬ Apart slashedTargets ∧
    readRule (rule slashedTargets ["my sum.rs"]) = (joinedTargets, Text.ofString "my sum.rs") ∧
    rule slashedTargets ["my sum.rs"] = rule joinedTargets ["my sum.rs"] := by
  have hgiven : slashedTargets ≠ [] := by decide
  have hmerged : merged slashedTargets = joinedTargets := by decide
  have hlegible := rule_legible hgiven (by decide) "my sum.rs"
  refine ⟨hgiven, by decide, by decide, hmerged ▸ hlegible.1, ?_⟩
  exact (hlegible.2.1 joinedTargets (by decide) "my sum.rs").2 ⟨hmerged.trans (by decide), rfl⟩

/-- **A rule does not tell its targets**: two of them can look like one with a space in it. -/
theorem rule_ambiguous : ¬ ∀ (targets targets' : List Text) (input input' : Text), targets ≠ [] → targets' ≠ [] →
    [] ∉ targets → [] ∉ targets' → input ≠ [] → input' ≠ [] →
    rule targets [input] = rule targets' [input'] → targets = targets' ∧ input = input' := by
  intro h
  have hsame := h ["sum.bc", "old\\", "b"] ["sum.bc", "old b"] "sum.rs" "sum.rs" (by decide) (by decide) (by decide)
    (by decide) (by decide) (by decide) (by decide)
  exact absurd hsame.1 (by decide)

end ScriptDriver.Backend
