import ScriptDriver.Proofs.CommandLine.Item
/-!
# Rendering — arguments shown as they were given

The tokens that an argument took are those from its place up to the place where the next one begins, or where reading
stopped.  Joined by blanks they are the argument as it is shown, with one exception: an option whose value may be a token
of its own is shown with a blank before the value also when the two are one token (`asText_eq_iff`).
-/
namespace ScriptDriver.CommandLine

namespace Matched

/-- Where the argument number `i` begins; after the last argument, where reading stopped. -/
def place (m : Matched) (i : Nat) : Nat :=
  match m.args[i]? with
  | some a => a.index
  | none => (m.shortage.map (·.index)).getD m.tokens.length

/-- The tokens that the argument number `i` took. -/
def taken (m : Matched) (i : Nat) : List Text := (m.tokens.drop (m.place i)).take (m.place (i + 1) - m.place i)

end Matched

/-! ## The tokens of an argument -/

section
variable {t : OptionTable} {start : Nat} {args : List Arg} {covered : List Text}

theorem Tiles.around (h : Tiles t start args covered) : ∀ {i : Nat} {a : Arg}, args[i]? = some a →
    ∃ before own after, covered = before ++ (own ++ after) ∧ a.index = start + before.length ∧
      a.spelling.Written a.values own ∧ Tiles t (a.index + own.length) (args.drop (i + 1)) after := by
  induction h with
  | nil => exact fun ha => by cases ha
  | @cons start b args own rest index of written more ih =>
    intro i a ha
    cases i with
    | zero =>
      cases ha
      exact ⟨[], own, rest, rfl, index, written, index ▸ more⟩
    | succ i =>
      obtain ⟨before, mine, after, rfl, hindex, hwritten, hafter⟩ := ih ha
      refine ⟨own ++ before, mine, after, by rw [List.append_assoc], ?_, hwritten, hafter⟩
      rw [hindex, List.length_append, Nat.add_assoc]

theorem Tiles.next (h : Tiles t start args covered) :
    (args.head?.map (·.index)).getD (start + covered.length) = start := by
  cases h with
  | nil => rfl
  | cons index => exact index

theorem Covers.split {tokens : List Text} {shortage : Option Shortage} (h : Covers t 0 covered tokens shortage) :
    covered <+: tokens ∧ (shortage.map (·.index)).getD tokens.length = covered.length := by
  cases shortage with
  | none =>
    obtain rfl : covered = tokens := h
    exact ⟨List.prefix_rfl, rfl⟩
  | some s =>
    obtain ⟨d, -, following, rfl, hindex, -⟩ := h
    exact ⟨List.prefix_append _ _, by simpa using hindex⟩

end

section
variable {t : OptionTable} {tokens : List Text} {m : Matched} {i : Nat} {a : Arg}

/-- **An argument can be written down as the tokens that it took.** -/
theorem taken_written (h : t.read tokens = .ok m) (ha : m.args[i]? = some a) :
    a.spelling.Written a.values (m.taken i) := by
  obtain ⟨rfl, covered, htiles, hcovers⟩ := OptionTable.read_sound h
  obtain ⟨⟨left, htokens⟩, hstop⟩ := hcovers.split
  obtain ⟨before, own, after, hcovered, hindex, hwritten, hafter⟩ := htiles.around ha
  have hplace : m.place i = before.length := by simp only [Matched.place, ha, hindex, Nat.zero_add]
  have hnext : m.place (i + 1) = before.length + own.length := by
    have hbegin := hafter.next
    rw [List.head?_drop, hindex, Nat.zero_add] at hbegin
    have hend : covered.length = before.length + own.length + after.length := by
      rw [hcovered, List.length_append, List.length_append, Nat.add_assoc]
    unfold Matched.place
    cases hb : m.args[i + 1]? with
    | some b => simpa [hb] using hbegin
    | none =>
      simp only [hb, Option.map_none, Option.getD_none] at hbegin
      simp only [hstop, hend, hbegin]
  have hown : m.taken i = own := by
    rw [Matched.taken, hnext, hplace, Nat.add_sub_cancel_left, ← htokens, hcovered, List.append_assoc, List.drop_left,
      List.append_assoc, List.take_left]
  rw [hown]
  exact hwritten

end

/-! ## Showing an argument -/

theorem asText_of_written {a : Arg} {own : List Text} (h : a.spelling.Written a.values own) :
    a.asText = Text.joinWith " " own ↔ ¬ (a.spelling.kind = .joinedOrSeparate ∧ own.length = 1) := by
  have hblank (name v : Text) : Text.joinWith " " [name, v] = name ++ (Glyph.char ' ' :: v) := by
    simp [Text.joinWith, List.intercalate, Text.ofString]
  have hone (v : Text) : Text.joinWith " " [v] = v := by simp [Text.joinWith, List.intercalate]
  unfold Arg.asText Arg.value
  generalize a.spelling = d, a.values = values at h
  cases h with
  | input kind v | unknown kind v => simp [kind, hone]
  | flag kind => simp [kind, hone]
  | joined kind v => simp [kind, hone]
  | separate kind v | detached kind v => simp [kind]
  | attached kind v hv =>
    -- the blank makes the text one glyph longer than the token
    simp only [kind, hblank, hone, List.length_singleton, and_self, not_true, iff_false]
    intro h
    have hlength := congrArg List.length (List.append_cancel_left h)
    rw [List.length_cons] at hlength
    omega
  | multi kind values hn => simp [kind]

/-- **Every argument is shown as the tokens that it took, joined by blanks**, unless it is an option whose value may be a
token of its own and is one token with the name. -/
theorem asText_eq_iff {t : OptionTable} {tokens : List Text} {m : Matched} (h : t.read tokens = .ok m) {i : Nat}
    {a : Arg} (ha : m.args[i]? = some a) :
    a.asText = Text.joinWith " " (m.taken i) ↔
      ¬ (a.spelling.kind = .joinedOrSeparate ∧ (m.taken i).length = 1) :=
  asText_of_written (taken_written h ha)

/-- An include path that is a token of its own, and one that is not. -/
def includeTokens : List Text := ["-I", "a", "-Ib"]

def includeArg (place : Nat) (dir : Text) : Arg := ⟨rowNamed includeName, rowNamed includeName, place, [dir]⟩

def includeMatched : Matched := ⟨includeTokens, [includeArg 0 "a", includeArg 2 "b"], none⟩

theorem read_includeTokens : standard.read includeTokens = .ok includeMatched := by
  have hrow := found_include.1.listed
  have hnext : (rowNamed includeName).fit "-I" ["a", "-Ib"] = .taken ["a"] 1 := rfl
  have hattached : (rowNamed includeName).fit "-Ib" [] = .taken ["b"] 0 := rfl
  have hwhole : (rowNamed includeName).name <+: ("-I" : Text) := ⟨[], rfl⟩
  have hbegins : (rowNamed includeName).name <+: ("-Ib" : Text) := ⟨"b", rfl⟩
  have hfirst := readAfter_taken hrow hwhole hnext (Nat.le_add_left 1 1) 0
  have hlast := readAfter_taken hrow hbegins hattached (Nat.le_refl 0) 2
  simp only [List.drop_succ_cons, List.drop_zero, Nat.zero_add, Nat.reduceAdd, hlast] at hfirst
  rw [OptionTable.read, includeTokens, hfirst]
  rfl

theorem asText_eq_iff_apart : standard.read includeTokens = .ok includeMatched ∧
    includeMatched.args[0]? = some (includeArg 0 "a") ∧
    ((includeArg 0 "a").asText = Text.joinWith " " (includeMatched.taken 0) ↔
      ¬ ((includeArg 0 "a").spelling.kind = .joinedOrSeparate ∧ (includeMatched.taken 0).length = 1)) :=
  ⟨read_includeTokens, rfl, asText_eq_iff read_includeTokens rfl⟩

/-- **Not every argument is shown as the tokens that it took**: an include path in one token with its option is shown as
if it were a token of its own. -/
theorem attached_not_shown : ¬ ∀ m, standard.read includeTokens = .ok m → ∀ i a, m.args[i]? = some a →
    a.asText = Text.joinWith " " (m.taken i) := by
  intro h
  have hshown := h includeMatched read_includeTokens 1 (includeArg 2 "b") rfl
  exact absurd hshown (by decide)

end ScriptDriver.CommandLine
