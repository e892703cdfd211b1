import ScriptDriver.Proofs.File.Ending
import ScriptDriver.Proofs.ResponseFile.Writing
/-!
# Concatenation — response files after one another

What has been read of a text matters to what comes after it only by a mark that is open, a backslash that waits for its
symbol and an argument that has begun.  A text is complete if it leaves none of the first two behind, and a blank ends
the argument.  So complete texts with blanks between them have the arguments of all of them, in order
(`tokens_separated`).
-/
namespace ScriptDriver.ResponseFile

variable {α : Type} {sign : α → Sign} {code : α → Nat}

namespace Scan

/-! ## What was read before -/

/-- The machine with arguments that were read before. -/
def after (earlier : List (List α)) (s : Scan α) : Scan α := { s with tokens := s.tokens ++ earlier }

theorem close_after (earlier : List (List α)) (s : Scan α) : (s.after earlier).close = s.close.after earlier := by
  unfold close after
  dsimp only
  split <;> rfl

/-- **What was read before plays no part in a step.** -/
theorem step_after (earlier : List (List α)) (s : Scan α) (x : α) :
    step sign (s.after earlier) x = (step sign s x).after earlier := by
  have hpush : (s.after earlier).push x = (s.push x).after earlier := rfl
  unfold step
  rw [close_after, hpush]
  obtain ⟨quote, escaped, current, tokens⟩ := s
  cases escaped with
  | true => rfl
  | false =>
    cases sign x with
    | blank => cases quote <;> rfl
    | quote mark =>
      cases quote with
      | none => rfl
      | some opened => by_cases hmark : opened = mark <;> simp [after, hmark]
    | escape => rfl
    | plain => rfl

theorem foldl_after (earlier : List (List α)) : ∀ (xs : List α) (s : Scan α),
    xs.foldl (step sign) (s.after earlier) = (xs.foldl (step sign) s).after earlier
  | [], _ => rfl
  | x :: xs, s => by rw [List.foldl_cons, List.foldl_cons, step_after, foldl_after earlier xs]

theorem finish_after (earlier : List (List α)) (s : Scan α) : (s.after earlier).finish = earlier.reverse ++ s.finish := by
  rw [finish, close_after, finish]
  exact List.reverse_append

/-! ## Complete texts -/

/-- No mark is open, and no backslash waits for its symbol. -/
structure Resting (s : Scan α) : Prop where
  unquoted : s.quote = none
  unescaped : s.escaped = false

end Scan

/-- **A text that is read to its end**: the machine rests after it. -/
def Complete (code : α → Nat) (xs : List α) : Prop := (xs.foldl (Scan.step (signBy code)) Scan.start).Resting

/-- A text made of blanks and of pieces of arguments. -/
inductive Whole (code : α → Nat) : List α → Prop where
  | nil : Whole code []
  | blank {x : α} {xs : List α} (blank : code x ∈ blankCodes) (rest : Whole code xs) : Whole code (x :: xs)
  | piece (p : Piece code) {xs : List α} (rest : Whole code xs) : Whole code (p.text ++ xs)

theorem Piece.text_ne_nil (p : Piece code) : p.text ≠ [] := by
  cases p <;> exact List.cons_ne_nil _ _

namespace Scan

theorem resting_of_whole {xs : List α} (h : Whole code xs) : ∀ (current : List α) (tokens : List (List α)),
    (xs.foldl (step (signBy code)) ⟨none, false, current, tokens⟩).Resting := by
  induction h with
  | nil => exact fun _ _ => ⟨rfl, rfl⟩
  | blank blank rest ih =>
    intro current tokens
    rw [List.foldl_cons, step_blank blank]
    exact ih _ _
  | piece p rest ih =>
    intro current tokens
    rw [List.foldl_append, foldl_piece]
    exact ih _ _

/-- **A mark that is open is closed before the machine rests.** -/
theorem exists_closing {mark : Mark} : ∀ {xs current : List α} {tokens : List (List α)},
    (xs.foldl (step (signBy code)) ⟨some mark, false, current, tokens⟩).Resting →
      ∃ (run : List (Inner code mark)) (closing : { x : α // code x = mark.code }) (rest : List α),
        xs = run.flatMap Inner.text ++ closing.val :: rest
  | [], _, _, h => by cases h.unquoted
  | x :: xs, current, tokens, h => by
    by_cases hmark : code x = mark.code
    · exact ⟨[], ⟨x, hmark⟩, xs, rfl⟩
    by_cases hescape : code x = escapeCode
    · cases xs with
      | nil =>
        have hsign : Sign.ofCode (code x) = .escape := Sign.ofCode_eq_escape.2 hescape
        have hwaiting := h.unescaped
        simp [step, signBy, hsign] at hwaiting
      | cons y ys =>
        have hescaped : x :: y :: ys = (Inner.escaped ⟨x, hescape⟩ y : Inner code mark).text ++ ys := rfl
        rw [hescaped, List.foldl_append, foldl_inner] at h
        obtain ⟨run, closing, rest, rfl⟩ := exists_closing h
        exact ⟨.escaped ⟨x, hescape⟩ y :: run, closing, rest, rfl⟩
    · have hitself : x :: xs = (Inner.itself x hmark hescape : Inner code mark).text ++ xs := rfl
      rw [hitself, List.foldl_append, foldl_inner] at h
      obtain ⟨run, closing, rest, rfl⟩ := exists_closing h
      exact ⟨.itself x hmark hescape :: run, closing, rest, rfl⟩

/-- **What rests after something begins with a blank or with a piece of an argument.** -/
theorem exists_piece {x : α} {xs current : List α} {tokens : List (List α)} (unblank : code x ∉ blankCodes)
    (h : ((x :: xs).foldl (step (signBy code)) ⟨none, false, current, tokens⟩).Resting) :
    ∃ (p : Piece code) (rest : List α), x :: xs = p.text ++ rest := by
  by_cases hescape : code x = escapeCode
  · cases xs with
    | nil =>
      have hsign : Sign.ofCode (code x) = .escape := Sign.ofCode_eq_escape.2 hescape
      have hwaiting := h.unescaped
      simp [step, signBy, hsign] at hwaiting
    | cons y ys => exact ⟨.escaped ⟨x, hescape⟩ y, ys, rfl⟩
  by_cases hmark : ∃ mark : Mark, code x = mark.code
  · obtain ⟨mark, hmark⟩ := hmark
    have hsign : Sign.ofCode (code x) = .quote mark := Sign.ofCode_eq_quote.2 hmark
    have hopen : step (signBy code) ⟨none, false, current, tokens⟩ x = ⟨some mark, false, current, tokens⟩ := by
      simp [step, signBy, hsign]
    rw [List.foldl_cons, hopen] at h
    obtain ⟨run, closing, rest, rfl⟩ := exists_closing h
    refine ⟨.quoted mark ⟨x, hmark⟩ run closing, rest, ?_⟩
    rw [Piece.text, List.cons_append, List.append_assoc]
    rfl
  · exact ⟨.itself x unblank (not_exists.1 hmark) hescape, xs, rfl⟩

theorem whole_of_resting {xs current : List α} {tokens : List (List α)}
    (h : (xs.foldl (step (signBy code)) ⟨none, false, current, tokens⟩).Resting) : Whole code xs := by
  -- a piece may be of any length, so what is left after it is shorter, but not by how much
  induction hn : xs.length using Nat.strongRecOn generalizing xs current tokens with
  | ind n ih =>
    subst hn
    cases xs with
    | nil => exact .nil
    | cons x xs =>
      by_cases hblank : code x ∈ blankCodes
      · rw [List.foldl_cons, step_blank hblank] at h
        exact .blank hblank (ih _ (Nat.lt_succ_self _) h rfl)
      · obtain ⟨p, rest, hxs⟩ := exists_piece hblank h
        have hshorter : rest.length < (x :: xs).length := by
          rw [hxs, List.length_append]
          exact Nat.lt_add_of_pos_left (List.length_pos_iff.2 p.text_ne_nil)
        rw [hxs, List.foldl_append, foldl_piece] at h
        rw [hxs]
        exact .piece p (ih _ hshorter h rfl)

theorem complete_iff {xs : List α} : Complete code xs ↔ Whole code xs :=
  ⟨whole_of_resting, fun h => resting_of_whole h [] []⟩

/-! ## One text after another -/

/-- **A blank after a complete text keeps what comes before and after it apart.** -/
theorem run_separated {xs ys : List α} {x : α} (complete : Complete code xs) (blank : code x ∈ blankCodes) :
    run (signBy code) (xs ++ x :: ys) = run (signBy code) xs ++ run (signBy code) ys := by
  obtain ⟨hquote, hescaped⟩ := complete
  unfold run
  rw [List.foldl_append, List.foldl_cons]
  generalize xs.foldl (step (signBy code)) start = s at hquote hescaped ⊢
  obtain ⟨quote, escaped, current, tokens⟩ := s
  obtain rfl : quote = none := hquote
  obtain rfl : escaped = false := hescaped
  have hstart : (⟨none, false, [], closed current tokens⟩ : Scan α) = start.after (closed current tokens) := rfl
  rw [step_blank blank, hstart, foldl_after, finish_after, finish_outside]

theorem run_joined {x : α} (blank : code x ∈ blankCodes) (last : List α) : ∀ {files : List (List α)},
    (∀ xs ∈ files, Complete code xs) → run (signBy code) (files.flatMap (fun xs => xs ++ [x]) ++ last) =
      files.flatMap (run (signBy code)) ++ run (signBy code) last
  | [], _ => rfl
  | xs :: files, h => by
    obtain ⟨hxs, hfiles⟩ := List.forall_mem_cons.1 h
    rw [List.flatMap_cons, List.flatMap_cons, List.append_assoc, List.append_assoc, List.singleton_append,
      run_separated hxs blank, run_joined blank last hfiles, List.append_assoc]

end Scan

/-- **Arguments are read from complete texts one by one**, if blanks stand between the texts: whichever of the blanks it
is between two of them, whatever the last text is, and for symbols that are no glyphs too.  The complete texts are those
made of blanks and pieces of arguments. -/
theorem tokens_separated :
    (∀ {a : Text} {c : Glyph} (b : Text), Complete Glyph.code a → c.code ∈ blankCodes →
      tokens (a ++ c :: b) = tokens a ++ tokens b) ∧
    (∀ {files : List Text} (last : Text), (∀ file ∈ files, Complete Glyph.code file) →
      tokens (Text.joinWith "\n" (files ++ [last])) = (files ++ [last]).flatMap tokens) ∧
    (∀ {a : List Nat} {c : Nat} (b : List Nat), Complete (fun n => n) a → c ∈ blankCodes →
      Scan.run Sign.ofCode (a ++ c :: b) = Scan.run Sign.ofCode a ++ Scan.run Sign.ofCode b) ∧
    ∀ t : Text, Complete Glyph.code t ↔ Whole Glyph.code t := by
  refine ⟨fun b complete blank => ?_, fun {files} last complete => ?_, fun _ => Scan.run_separated,
    fun _ => Scan.complete_iff⟩
  · simp only [tokens_eq_run]
    exact Scan.run_separated complete blank
  · have hblank : (Glyph.char '\n').code ∈ blankCodes := by decide
    have hread : tokens = Scan.run (signBy Glyph.code) := funext tokens_eq_run
    rw [File.joinWith_concat, List.flatMap_append, List.flatMap_singleton, hread]
    exact Scan.run_joined hblank last complete

/-- A text with a quote, an escaped blank at its end, and a comment sign that means nothing. -/
def quotedFile : Text := "-I 'My Documents' #\\ "

theorem quotedFile_complete : Complete Glyph.code quotedFile := ⟨by decide, by decide⟩

theorem tokens_separated_quoted : Complete Glyph.code quotedFile ∧ (Glyph.char '\t').code ∈ blankCodes ∧
    tokens (quotedFile ++ .char '\t' :: "'open") = tokens quotedFile ++ tokens "'open" ∧
    tokens (Text.joinWith "\n" [quotedFile, "sum.rs\\"]) = [("-I" : Text), "My Documents", "# ", "sum.rs"] := by
  have blank : (Glyph.char '\t').code ∈ blankCodes := by decide
  obtain ⟨htwo, hmany, -, -⟩ := tokens_separated
  refine ⟨quotedFile_complete, blank, htwo _ quotedFile_complete blank, ?_⟩
  have hjoined : tokens (Text.joinWith "\n" ([quotedFile] ++ [("sum.rs\\" : Text)])) =
      ([quotedFile] ++ [("sum.rs\\" : Text)]).flatMap tokens :=
    hmany _ (List.forall_mem_singleton.2 quotedFile_complete)
  exact hjoined.trans (by rfl)

end ScriptDriver.ResponseFile
