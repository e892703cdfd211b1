import Mathlib.Data.List.Permutation
import ScriptDriver.Proofs.CommandLine.ClosedTable
/-!
# Tiling — what is read accounts for every token

The arguments read from a command line lie side by side: each begins where the one before it ends, and the tokens it
took can be written down again from its row and its values (`Written`).  They cover the command line, or stop at the
name of an option that needs more values than there are tokens left (`Covers`).
-/
namespace ScriptDriver.CommandLine

/-- How an argument with some values stands on a command line, by the row it was typed as. -/
inductive Descriptor.Written (d : Descriptor) : List Text → List Text → Prop
  | input (kind : d.kind = .input) (v : Text) : d.Written [v] [v]
  | unknown (kind : d.kind = .unknown) (v : Text) : d.Written [v] [v]
  | flag (kind : d.kind = .flag) : d.Written [] [d.name]
  | joined (kind : d.kind = .joined) (v : Text) : d.Written [v] [d.name ++ v]
  | separate (kind : d.kind = .separate) (v : Text) : d.Written [v] [d.name, v]
  | attached (kind : d.kind = .joinedOrSeparate) (v : Text) (hv : v ≠ []) : d.Written [v] [d.name ++ v]
  | detached (kind : d.kind = .joinedOrSeparate) (v : Text) : d.Written [v] [d.name, v]
  | multi (kind : d.kind = .multi) (values : List Text) (hn : values.length = d.arity) :
    d.Written values (d.name :: values)

/-- The number of values that a row takes from the tokens after its name. -/
def Descriptor.needs (d : Descriptor) : Nat :=
  match d.kind with
  | .separate | .joinedOrSeparate => 1
  | .multi => d.arity
  | _ => 0

/-- An argument that a table gives: an input, an unknown option, or an option of the table as one of its rows. -/
inductive Arg.Of (t : OptionTable) (a : Arg) : Prop
  | input (option : a.option = .input) (spelling : a.spelling = .input)
  | unknown (option : a.option = .unknown) (spelling : a.spelling = .unknown)
  | row (spelling : a.spelling ∈ t.matchable) (option : t.resolve a.spelling = .ok a.option)

/-- **Arguments side by side**: the first at a place, each next one where the one before it ends. -/
inductive Tiles (t : OptionTable) : Nat → List Arg → List Text → Prop
  | nil (place : Nat) : Tiles t place [] []
  | cons {place : Nat} {a : Arg} {args : List Arg} {taken rest : List Text} (index : a.index = place) (of : a.Of t)
    (written : a.spelling.Written a.values taken) (more : Tiles t (place + taken.length) args rest) :
    Tiles t place (a :: args) (taken ++ rest)

/-- **How far the arguments go**: through all tokens from `place` on, or up to the name of an option that needs more
values than there are tokens after it. -/
def Covers (t : OptionTable) (place : Nat) (covered tokens : List Text) : Option Shortage → Prop
  | none => covered = tokens
  | some s => ∃ d ∈ t.matchable, ∃ following, tokens = covered ++ d.name :: following ∧
    s.index = place + covered.length ∧ following.length < d.needs ∧ s.missing = d.needs - following.length

theorem covers_append {t : OptionTable} {place : Nat} (taken : List Text) {covered tokens : List Text}
    {shortage : Option Shortage} (h : Covers t (place + taken.length) covered tokens shortage) :
    Covers t place (taken ++ covered) (taken ++ tokens) shortage := by
  cases shortage with
  | none => exact congrArg (taken ++ ·) h
  | some s =>
    obtain ⟨d, hd, following, htokens, hindex, hlt, hmissing⟩ := h
    refine ⟨d, hd, following, by rw [htokens, List.append_assoc], ?_, hlt, hmissing⟩
    rw [hindex, List.length_append, Nat.add_assoc]

/-! ## One token -/

theorem eq_name_of_length {d : Descriptor} {token : Text} (hp : d.name.isPrefixOf token = true)
    (hl : token.length = d.name.length) : token = d.name :=
  ((List.isPrefixOf_iff_prefix.1 hp).eq_of_length hl.symm).symm

theorem name_append_rest {d : Descriptor} {token : Text} (hp : d.name.isPrefixOf token = true) :
    d.name ++ token.drop d.name.length = token := by
  obtain ⟨rest, rfl⟩ := List.isPrefixOf_iff_prefix.1 hp
  rw [List.drop_left]

theorem next_taken {following values : List Text} {n : Nat} (h : Fit.next following = .taken values n) :
    ∃ v rest, following = v :: rest ∧ values = [v] ∧ n = 1 := by
  cases following with
  | nil => cases h
  | cons v rest =>
    cases h
    exact ⟨v, rest, rfl, rfl, rfl⟩

theorem next_short {following : List Text} {missing : Nat} (h : Fit.next following = .short missing) :
    following = [] ∧ missing = 1 := by
  cases following with
  | nil =>
    cases h
    exact ⟨rfl, rfl⟩
  | cons v rest => cases h

/-- **What a row takes can be written down again** from the row and the values. -/
theorem written_of_taken {d : Descriptor} {token : Text} {following values : List Text} {n : Nat}
    (hp : d.name.isPrefixOf token = true) (h : d.fit token following = .taken values n) :
    n ≤ following.length ∧ d.Written values (token :: following.take n) := by
  have hrest := name_append_rest hp
  unfold Descriptor.fit at h
  simp only at h
  cases hk : d.kind <;> rw [hk] at h <;> simp only at h
  case flag =>
    split at h
    · rename_i hl
      cases h
      rw [eq_name_of_length hp hl]
      exact ⟨Nat.zero_le _, .flag hk⟩
    · cases h
  case joined =>
    cases h
    have hw := Descriptor.Written.joined hk (token.drop d.name.length)
    rw [hrest] at hw
    exact ⟨Nat.zero_le _, hw⟩
  case separate =>
    split at h
    · rename_i hl
      obtain ⟨v, rest, rfl, rfl, rfl⟩ := next_taken h
      rw [eq_name_of_length hp hl]
      exact ⟨by simp, .separate hk v⟩
    · cases h
  case joinedOrSeparate =>
    split at h
    · rename_i hl
      obtain ⟨v, rest, rfl, rfl, rfl⟩ := next_taken h
      rw [eq_name_of_length hp hl]
      exact ⟨by simp, .detached hk v⟩
    · rename_i hl
      cases h
      have hne : token.drop d.name.length ≠ [] := by
        intro hnil
        rw [hnil, List.append_nil] at hrest
        exact hl (by rw [hrest])
      have hw := Descriptor.Written.attached hk _ hne
      rw [hrest] at hw
      exact ⟨Nat.zero_le _, hw⟩
  case multi =>
    split at h
    · rename_i hl
      split at h
      · cases h
      · rename_i hn
        cases h
        rw [eq_name_of_length hp hl]
        exact ⟨by omega, .multi hk _ (by rw [List.length_take]; omega)⟩
    · cases h
  all_goals cases h

/-- **A row is short of values** only when the token is its name and the tokens after it are too few. -/
theorem needs_of_short {d : Descriptor} {token : Text} {following : List Text} {missing : Nat}
    (hp : d.name.isPrefixOf token = true) (h : d.fit token following = .short missing) :
    token = d.name ∧ following.length < d.needs ∧ missing = d.needs - following.length := by
  unfold Descriptor.fit at h
  unfold Descriptor.needs
  simp only at h
  cases hk : d.kind <;> rw [hk] at h <;> simp only at h ⊢
  case flag => split at h <;> cases h
  case separate =>
    split at h
    · rename_i hl
      obtain ⟨rfl, rfl⟩ := next_short h
      exact ⟨eq_name_of_length hp hl, by simp, by simp⟩
    · cases h
  case joinedOrSeparate =>
    split at h
    · rename_i hl
      obtain ⟨rfl, rfl⟩ := next_short h
      exact ⟨eq_name_of_length hp hl, by simp, by simp⟩
    · cases h
  case multi =>
    split at h
    · rename_i hl
      split at h
      · rename_i hn
        cases h
        exact ⟨eq_name_of_length hp hl, hn, rfl⟩
      · cases h
    · cases h
  all_goals cases h

namespace OptionTable

/-- In any table, a first fit is a candidate that begins the token, with its own fit. -/
theorem firstFit_sound {t : OptionTable} {token : Text} {following : List Text} {o d : Descriptor} {fit : Fit} :
    ∀ {ds : List Descriptor}, t.firstFit token following ds = .ok (some (o, d, fit)) →
      d ∈ ds ∧ t.resolve d = .ok o ∧ d.name.isPrefixOf token = true ∧ d.fit token following = fit
  | [], h => by cases h
  | e :: ds, h => by
    have hlater (h : t.firstFit token following ds = .ok (some (o, d, fit))) :
        d ∈ e :: ds ∧ t.resolve d = .ok o ∧ d.name.isPrefixOf token = true ∧ d.fit token following = fit := by
      obtain ⟨hmem, hd⟩ := firstFit_sound h
      exact ⟨List.mem_cons_of_mem e hmem, hd⟩
    rw [firstFit] at h
    split at h
    · rename_i hp
      split at h
      · cases h
      · rename_i ho
        split at h
        · exact hlater h
        · cases h
          exact ⟨List.mem_cons_self, ho, hp, rfl⟩
    · exact hlater h

/-- **What one option token comes to**, in any table: an option short of values, or an argument that takes the token and
some of those after it. -/
theorem readOption_sound {t : OptionTable} {token : Text} {following : List Text} {index : Nat}
    {r : Except Shortage (Arg × Nat)} (h : t.readOption token following index = .ok r) :
    (∃ d ∈ t.matchable, token = d.name ∧ following.length < d.needs ∧
      r = .error ⟨index, d.needs - following.length⟩) ∨
    ∃ a n, r = .ok (a, n) ∧ n ≤ following.length ∧ a.index = index ∧ a.Of t ∧
      a.spelling.Written a.values (token :: following.take n) := by
  have hunknown : Descriptor.unknown.Written [token] (token :: following.take 0) := .unknown rfl token
  unfold readOption at h
  split at h
  · cases h
  · cases h
    exact .inr ⟨_, 0, rfl, Nat.zero_le _, rfl, .unknown rfl rfl, hunknown⟩
  · rename_i o d fit hfirst
    obtain ⟨hmem, ho, hp, hfit⟩ := firstFit_sound hfirst
    cases fit with
    | refused =>
      cases h
      exact .inr ⟨_, 0, rfl, Nat.zero_le _, rfl, .unknown rfl rfl, hunknown⟩
    | short missing =>
      cases h
      obtain ⟨hname, hlt, rfl⟩ := needs_of_short hp hfit
      exact .inl ⟨d, hmem, hname, hlt, rfl⟩
    | taken values n =>
      cases h
      obtain ⟨hn, hw⟩ := written_of_taken hp hfit
      exact .inr ⟨_, n, rfl, hn, rfl, .row hmem ho, hw⟩

theorem readOption_total {t : OptionTable} (closed : t.Closed) (token : Text) (following : List Text) (index : Nat) :
    ∃ r, t.readOption token following index = .ok r := by
  unfold readOption
  rcases firstFit_of_closed closed token following t.matchable (fun d hd => (mem_matchable.1 hd).1) with
    ⟨h, -⟩ | ⟨d, o, -, -, h⟩
  · rw [h]
    exact ⟨_, rfl⟩
  · rw [h]
    cases hf : d.fit token following <;> exact ⟨_, rfl⟩

/-! ## The whole command line -/

/-- Tokens that were taken as values are passed over. -/
theorem readAfter_skip (t : OptionTable) : ∀ (skip index : Nat) (tokens : List Text), skip ≤ tokens.length →
    t.readAfter skip index tokens = t.readAfter 0 (index + skip) (tokens.drop skip)
  | 0, _, _, _ => rfl
  | skip + 1, index, [], h => by simp at h
  | skip + 1, index, _ :: rest, h => by
    rw [readAfter, readAfter_skip t skip (index + 1) rest (by simpa using h), List.drop_succ_cons]
    congr 1
    omega

/-- **Reading tiles the tokens**, in any table and from any place on, whatever was taken as values before.  Each step
takes at least one token, and the rest is read from the place after those it took. -/
theorem readAfter_sound {t : OptionTable} : ∀ {skip index : Nat} {tokens : List Text} {args : List Arg}
    {shortage : Option Shortage}, t.readAfter skip index tokens = .ok (args, shortage) → skip ≤ tokens.length →
      ∃ covered, Tiles t (index + skip) args covered ∧ Covers t (index + skip) covered (tokens.drop skip) shortage
  | skip, index, [], args, shortage, h, hskip => by
    obtain rfl : skip = 0 := Nat.le_zero.1 hskip
    cases h
    exact ⟨[], .nil index, rfl⟩
  | skip + 1, index, _ :: rest, args, shortage, h, hskip => by
    have hread : t.readAfter skip (index + 1) rest = .ok (args, shortage) := h
    have hrest := readAfter_sound hread (Nat.le_of_succ_le_succ hskip)
    rwa [Nat.add_assoc, Nat.add_comm 1 skip] at hrest
  | 0, index, token :: rest, args, shortage, h, _ => by
    rw [readAfter] at h
    split at h
    · split at h
      · cases h
      · rename_i hmore
        cases h
        obtain ⟨covered, htiles, hcovers⟩ := readAfter_sound hmore (Nat.zero_le _)
        exact ⟨[token] ++ covered, .cons rfl (.input rfl rfl) (.input rfl token) htiles, covers_append [token] hcovers⟩
    · split at h
      · cases h
      · rename_i s hread
        cases h
        obtain ⟨d, hd, hname, hlt, hs⟩ | ⟨a, n, ha, -⟩ := readOption_sound hread
        · cases hs
          exact ⟨[], .nil index, d, hd, rest, by rw [hname]; rfl, rfl, hlt, rfl⟩
        · cases ha
      · rename_i a n hread
        split at h
        · cases h
        · rename_i hmore
          cases h
          obtain ⟨d, -, -, -, hs⟩ | ⟨a, n, ha, hn, hindex, hof, hw⟩ := readOption_sound hread
          · cases hs
          cases ha
          have hlen : index + 1 + n = index + (token :: rest.take n).length := by
            rw [List.length_cons, List.length_take_of_le hn]
            omega
          obtain ⟨covered, htiles, hcovers⟩ := readAfter_sound hmore hn
          rw [hlen] at htiles hcovers
          have hall : (token :: rest.take n) ++ rest.drop n = token :: rest := by
            rw [List.cons_append, List.take_append_drop]
          refine ⟨(token :: rest.take n) ++ covered, .cons hindex hof hw htiles, ?_⟩
          exact hall ▸ covers_append (token :: rest.take n) hcovers

theorem readAfter_total {t : OptionTable} (closed : t.Closed) : ∀ (skip index : Nat) (tokens : List Text),
    ∃ r, t.readAfter skip index tokens = .ok r
  | _, _, [] => ⟨_, by rw [readAfter]⟩
  | skip + 1, index, _ :: rest => readAfter_total closed skip (index + 1) rest
  | 0, index, token :: rest => by
    rw [readAfter]
    split
    · obtain ⟨r, hr⟩ := readAfter_total closed 0 (index + 1) rest
      rw [hr]
      exact ⟨_, rfl⟩
    · obtain ⟨r, hread⟩ := readOption_total closed token rest index
      rw [hread]
      rcases r with s | ⟨a, n⟩
      · exact ⟨_, rfl⟩
      · obtain ⟨r, hr⟩ := readAfter_total closed n (index + 1) rest
        simp only [hr]
        exact ⟨_, rfl⟩

/-- What has been read tiles the command line. -/
theorem read_sound {t : OptionTable} {tokens : List Text} {m : Matched} (h : t.read tokens = .ok m) :
    m.tokens = tokens ∧ ∃ covered, Tiles t 0 m.args covered ∧ Covers t 0 covered tokens m.shortage := by
  rw [read] at h
  split at h
  · cases h
  · rename_i hread
    cases h
    exact ⟨rfl, readAfter_sound hread (Nat.zero_le _)⟩

theorem read_total {t : OptionTable} (closed : t.Closed) (tokens : List Text) : ∃ m, t.read tokens = .ok m := by
  obtain ⟨⟨args, shortage⟩, h⟩ := readAfter_total closed 0 0 tokens
  exact ⟨⟨tokens, args, shortage⟩, by rw [read, h]⟩

end OptionTable

/-- **Reading a command line against a closed table**: it never fails, and the arguments tile the tokens. -/
theorem OptionTable.read_of_closed {t : OptionTable} (closed : t.Closed) (tokens : List Text) :
    ∃ m, t.read tokens = .ok m ∧ m.tokens = tokens ∧
      ∃ covered, Tiles t 0 m.args covered ∧ Covers t 0 covered tokens m.shortage := by
  obtain ⟨m, h⟩ := read_total closed tokens
  exact ⟨m, h, read_sound h⟩

theorem Tiles.of {t : OptionTable} {place : Nat} {args : List Arg} {covered : List Text}
    (h : Tiles t place args covered) : ∀ a ∈ args, a.Of t := by
  induction h with
  | nil => exact fun a ha => absurd ha List.not_mem_nil
  | cons _ of _ _ ih =>
    intro a ha
    rcases List.mem_cons.1 ha with rfl | ha
    · exact of
    · exact ih a ha

theorem standard_needs : ∀ d ∈ standard.rows, d.needs ≤ 1 := by decide

/-- **Reading accounts for every token.**  In a closed table reading never fails, and its arguments tile the command
line up to an option that is short of values, if there is one; in the standard table that option is the last token. -/
theorem read_tiles :
    (∀ t : OptionTable, t.Closed → ∀ tokens : List Text, ∃ m, t.read tokens = .ok m ∧ m.tokens = tokens ∧
      ∃ covered, Tiles t 0 m.args covered ∧ Covers t 0 covered tokens m.shortage) ∧
    ∀ (tokens : List Text) (m : Matched), standard.read tokens = .ok m →
      ∀ s ∈ m.shortage, s.index + 1 = tokens.length := by
  refine ⟨fun t closed tokens => OptionTable.read_of_closed closed tokens, fun tokens m hm s hs => ?_⟩
  obtain ⟨m', hm', -, covered, -, hcovers⟩ := OptionTable.read_of_closed standard_closed tokens
  obtain rfl : m' = m := Except.ok.inj (hm'.symm.trans hm)
  rw [Option.mem_def.1 hs] at hcovers
  obtain ⟨d, hd, following, htokens, hindex, hlt, -⟩ := hcovers
  have hneeds := standard_needs d (OptionTable.mem_matchable.1 hd).1
  rw [htokens, List.length_append, List.length_cons, hindex]
  omega

/-- A command line whose last option has no value, and what is read from it. -/
def unfinishedTokens : List Text := ["-I", "-MD", "a.rs", "-o"]

def unfinishedRead : Matched where
  tokens := unfinishedTokens
  args := [⟨standardRows[2], standardRows[2], 0, ["-MD"]⟩, ⟨.input, .input, 2, ["a.rs"]⟩]
  shortage := some ⟨3, 1⟩

theorem read_unfinished : standard.read unfinishedTokens = .ok unfinishedRead := by cbv

theorem read_tiles_unfinished : standard.Closed ∧ standard.read unfinishedTokens = .ok unfinishedRead ∧
    Tiles standard 0 unfinishedRead.args (unfinishedTokens.take 3) ∧
    Covers standard 0 (unfinishedTokens.take 3) unfinishedTokens unfinishedRead.shortage ∧
    3 + 1 = unfinishedTokens.length := by
  obtain ⟨m, hm, -, covered, htiles, hcovers⟩ := read_tiles.1 standard standard_closed unfinishedTokens
  obtain rfl : unfinishedRead = m := Except.ok.inj (read_unfinished.symm.trans hm)
  have hlast : 3 + 1 = unfinishedTokens.length := read_tiles.2 unfinishedTokens unfinishedRead hm ⟨3, 1⟩ rfl
  obtain ⟨d, -, following, htokens, hindex, -⟩ := id hcovers
  have hthree : 3 = covered.length := hindex.trans (Nat.zero_add _)
  obtain rfl : unfinishedTokens.take 3 = covered := by rw [htokens, hthree, List.take_left]
  exact ⟨standard_closed, hm, htiles, hcovers, hlast⟩

end ScriptDriver.CommandLine
