import ScriptDriver.Proofs.CommandLine.Item
/-!
# Continuation — command lines that go on

What comes after a command line has no say in how it is read, unless its last option is short of values: a row takes the
tokens that it needs from those there are, and all that more tokens can do is to end a shortage.  So a command line
without one can be continued, and what it is continued with is read as it would be by itself, only further on
(`read_continued`).
-/
namespace ScriptDriver.CommandLine

/-! ## Further on -/

def Arg.shift (k : Nat) (a : Arg) : Arg := { a with index := a.index + k }

def Shortage.shift (k : Nat) (s : Shortage) : Shortage := { s with index := s.index + k }

namespace OptionTable

section
variable (t : OptionTable) (k : Nat)

theorem readOption_shift (token : Text) (following : List Text) (index : Nat) :
    t.readOption token following (index + k) =
      match t.readOption token following index with
      | .error e => .error e
      | .ok (.error s) => .ok (.error (s.shift k))
      | .ok (.ok (a, n)) => .ok (.ok (a.shift k, n)) := by
  unfold readOption
  rcases t.firstFit token following t.matchable with e | _ | ⟨o, d, fit⟩
  · rfl
  · rfl
  · cases fit <;> rfl

theorem readAfter_shift : ∀ (skip index : Nat) (tokens : List Text),
    t.readAfter skip (index + k) tokens =
      (t.readAfter skip index tokens).map fun r => (r.1.map (·.shift k), r.2.map (·.shift k))
  | skip, index, [] => by
    rw [readAfter, readAfter]
    rfl
  | skip + 1, index, _ :: rest => by
    rw [readAfter, readAfter, Nat.add_right_comm, readAfter_shift skip (index + 1) rest]
  | 0, index, token :: rest => by
    rw [readAfter, readAfter, Nat.add_right_comm]
    split
    · rw [readAfter_shift 0 (index + 1) rest]
      rcases t.readAfter 0 (index + 1) rest with e | ⟨args, shortage⟩ <;> rfl
    · rw [readOption_shift]
      rcases t.readOption token rest index with e | s | ⟨a, n⟩
      · rfl
      · rfl
      · simp only [readAfter_shift n (index + 1) rest]
        rcases t.readAfter n (index + 1) rest with e | ⟨args, shortage⟩ <;> rfl

end

/-! ## More tokens -/

section
variable {t : OptionTable} {d : Descriptor} {token : Text} {following : List Text} (more : List Text)

theorem next_append (h : ∀ n, Fit.next following ≠ .short n) : Fit.next (following ++ more) = Fit.next following := by
  cases following with
  | nil => exact absurd rfl (h 1)
  | cons v rest => rfl

/-- **More tokens change nothing about how a row takes a token**, unless it was short of values. -/
theorem fit_append (h : ∀ n, d.fit token following ≠ .short n) :
    d.fit token (following ++ more) = d.fit token following := by
  unfold Descriptor.fit at h ⊢
  simp only at h ⊢
  cases hk : d.kind <;> simp only [hk] at h ⊢
  case separate =>
    by_cases hl : token.length = d.name.length
    · simp only [hl, if_true] at h ⊢
      exact next_append more h
    · rw [if_neg hl, if_neg hl]
  case joinedOrSeparate =>
    by_cases hl : token.length = d.name.length
    · simp only [hl, if_true] at h ⊢
      exact next_append more h
    · rw [if_neg hl, if_neg hl]
  case multi =>
    by_cases hl : token.length = d.name.length
    · simp only [hl, if_true] at h ⊢
      by_cases hn : following.length < d.arity
      · rw [if_pos hn] at h
        exact absurd rfl (h _)
      · have hmore : ¬ (following ++ more).length < d.arity := by
          rw [List.length_append]
          omega
        rw [if_neg hn, if_neg hmore, List.take_append_of_le_length (Nat.not_lt.1 hn)]
    · rw [if_neg hl, if_neg hl]

theorem firstFit_append : ∀ {ds : List Descriptor},
    (∀ o d n, t.firstFit token following ds ≠ .ok (some (o, d, .short n))) →
      t.firstFit token (following ++ more) ds = t.firstFit token following ds
  | [], _ => rfl
  | d :: ds, h => by
    rw [firstFit] at h ⊢
    rw [firstFit]
    by_cases hp : d.name.isPrefixOf token = true
    · simp only [hp, if_true] at h ⊢
      cases ho : t.resolve d with
      | error e => rfl
      | ok o =>
        simp only [ho] at h ⊢
        have hfit : d.fit token (following ++ more) = d.fit token following := by
          refine fit_append more fun n hshort => ?_
          rw [hshort] at h
          exact h o d n rfl
        by_cases hr : d.fit token following = .refused
        · simp only [hfit, hr, if_true] at h ⊢
          exact firstFit_append h
        · simp only [hfit, hr, if_false]
    · simp only [hp] at h ⊢
      exact firstFit_append h

theorem readOption_append {index : Nat} (h : ∀ s, t.readOption token following index ≠ .ok (.error s)) :
    t.readOption token (following ++ more) index = t.readOption token following index := by
  have hfirst : t.firstFit token (following ++ more) t.matchable = t.firstFit token following t.matchable := by
    refine firstFit_append more fun o d n hshort => ?_
    rw [readOption, hshort] at h
    exact h _ rfl
  rw [readOption, readOption, hfirst]

/-- **A command line that can be continued**: what follows is read from the place where it begins. -/
theorem readAfter_append {skip index : Nat} {tokens : List Text} {args : List Arg}
    (h : t.readAfter skip index tokens = .ok (args, none)) (hskip : skip ≤ tokens.length) :
    t.readAfter skip index (tokens ++ more) =
      (t.readAfter 0 (index + tokens.length) more).map fun r => (args ++ r.1, r.2) := by
  induction tokens generalizing skip index args with
  | nil =>
    obtain rfl : skip = 0 := Nat.le_zero.1 hskip
    cases h
    rw [List.nil_append, List.length_nil, Nat.add_zero]
    rcases t.readAfter 0 index more with e | r <;> rfl
  | cons token rest ih =>
    have hend : index + (token :: rest).length = index + 1 + rest.length := by
      rw [List.length_cons]
      omega
    rw [List.cons_append, hend]
    cases skip with
    | succ skip => exact ih h (Nat.le_of_succ_le_succ hskip)
    | zero =>
      rw [readAfter] at h ⊢
      by_cases hin : isInput token = true
      · rw [if_pos hin] at h ⊢
        split at h
        · cases h
        · rename_i hmore
          cases h
          rw [ih hmore (Nat.zero_le _)]
          rcases t.readAfter 0 (index + 1 + rest.length) more with e | r <;> rfl
      · rw [if_neg hin] at h ⊢
        split at h
        · cases h
        · cases h
        · rename_i a n hread
          have henough (s : Shortage) : t.readOption token rest index ≠ .ok (.error s) := by
            rw [hread]
            intro hs
            cases hs
          have hoption := readOption_append more henough
          obtain ⟨d, -, -, -, hs⟩ | ⟨a, n, ha, hn, -⟩ := readOption_sound hread
          · cases hs
          cases ha
          split at h
          · cases h
          · rename_i hmore
            cases h
            simp only [hoption, hread, ih hmore hn]
            rcases t.readAfter 0 (index + 1 + rest.length) more with e | r <;> rfl

end

end OptionTable

/-- **A command line that is not short of values can be continued**: what it says it says still, and what follows is read
as it is by itself, only further on. -/
theorem read_continued {t : OptionTable} (closed : t.Closed) (tokens more : List Text) :
    ∃ m n, t.read tokens = .ok m ∧ t.read more = .ok n ∧
      (m.shortage = none → t.read (tokens ++ more) =
        .ok ⟨tokens ++ more, m.args ++ n.args.map (·.shift tokens.length), n.shortage.map (·.shift tokens.length)⟩) := by
  obtain ⟨⟨args, shortage⟩, hfirst⟩ := OptionTable.readAfter_total closed 0 0 tokens
  obtain ⟨⟨later, last⟩, hsecond⟩ := OptionTable.readAfter_total closed 0 0 more
  refine ⟨⟨tokens, args, shortage⟩, ⟨more, later, last⟩, ?_, ?_, ?_⟩
  · rw [OptionTable.read, hfirst]
  · rw [OptionTable.read, hsecond]
  · rintro rfl
    rw [OptionTable.read, OptionTable.readAfter_append more hfirst (Nat.zero_le _), OptionTable.readAfter_shift, hsecond]
    rfl

/-- A command line with a value at its end, and one that is short of a value. -/
def givenTokens : List Text := ["a.rs", "-o", "-MD"]

def furtherTokens : List Text := ["b.rs", "-I"]

theorem givenTokens_said :
    Said givenTokens [.input "a.rs" (by decide), .valued "-o" (by decide) "-MD"] none := ⟨nofun, rfl⟩

theorem read_continued_given : standard.Closed ∧ ∃ m n, standard.read givenTokens = .ok m ∧ m.shortage = none ∧
    standard.read furtherTokens = .ok n ∧ standard.read (givenTokens ++ furtherTokens) =
      .ok ⟨givenTokens ++ furtherTokens, m.args ++ n.args.map (·.shift 3), n.shortage.map (·.shift 3)⟩ := by
  obtain ⟨m, n, hm, hn, hcontinued⟩ := read_continued standard_closed givenTokens furtherTokens
  obtain ⟨m', hm', -, -, hshortage⟩ := read_of_said givenTokens_said
  obtain rfl : m' = m := Except.ok.inj (hm'.symm.trans hm)
  exact ⟨standard_closed, m', n, hm, hshortage, hn, hcontinued hshortage⟩

end ScriptDriver.CommandLine
