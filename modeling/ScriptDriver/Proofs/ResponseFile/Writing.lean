import ScriptDriver.ResponseFile.Token
/-!
# Writing — how arguments are written in a response file

An argument is written piece by piece: a symbol by itself, a symbol after a backslash, or a run between two equal
quotation marks.  Blanks stand between the arguments, and may stand before and after them.  Whatever is to be read can
be written, and however it is written, it is what is read (`tokens_written`).

A writing is told by the codes of its symbols, and by nothing that the machine takes them for.  So it may be one of
glyphs, or one of any codes, of those also that no glyph has.
-/
namespace ScriptDriver.ResponseFile

/-! ## Signs -/

/-- The codes of the six blanks, of a mark, and of the backslash. -/
def blankCodes : List Nat := [0x20, 0x09, 0x0A, 0x0B, 0x0C, 0x0D]

def Mark.code : Mark → Nat
  | .single => 0x27
  | .double => 0x22

def escapeCode : Nat := 0x5C

theorem mem_blankCodes {n : Nat} : n ∈ blankCodes ↔ n = 0x20 ∨ (0x09 ≤ n ∧ n ≤ 0x0D) := by
  simp only [blankCodes, List.mem_cons, List.not_mem_nil, or_false]
  omega

theorem Sign.ofCode_eq_blank {n : Nat} : Sign.ofCode n = .blank ↔ n ∈ blankCodes := by
  rw [mem_blankCodes]
  grind [ofCode]

theorem Sign.ofCode_eq_quote {n : Nat} {mark : Mark} : Sign.ofCode n = .quote mark ↔ n = mark.code := by
  cases mark <;> grind [ofCode, Mark.code]

theorem Sign.ofCode_eq_escape {n : Nat} : Sign.ofCode n = .escape ↔ n = escapeCode := by
  grind [ofCode, escapeCode]

/-- A byte that is no character counts as the code that marks it, and that means nothing. -/
theorem Sign.ofGlyph_eq (g : Glyph) : Sign.ofGlyph g = .ofCode g.code := by
  cases g with
  | char c => rfl
  | raw b => grind [ofGlyph, ofCode, Glyph.code]

variable {α : Type} {code : α → Nat} {mark : Mark}

def signBy (code : α → Nat) (x : α) : Sign := .ofCode (code x)

/-! ## Writings -/

/-- A symbol between two marks. -/
inductive Inner (code : α → Nat) (mark : Mark) where
  | itself (x : α) (unmarked : code x ≠ mark.code) (unescaping : code x ≠ escapeCode)
  | escaped (escape : { x : α // code x = escapeCode }) (x : α)

/-- A piece of an argument. -/
inductive Piece (code : α → Nat) where
  | itself (x : α) (unblank : code x ∉ blankCodes) (unmarked : ∀ mark : Mark, code x ≠ mark.code)
      (unescaping : code x ≠ escapeCode)
  | escaped (escape : { x : α // code x = escapeCode }) (x : α)
  | quoted (mark : Mark) (opening : { x : α // code x = mark.code }) (run : List (Inner code mark))
      (closing : { x : α // code x = mark.code })

def Inner.symbol : Inner code mark → α
  | .itself x _ _ => x
  | .escaped _ x => x

def Inner.text : Inner code mark → List α
  | .itself x _ _ => [x]
  | .escaped escape x => [escape.val, x]

/-- What a piece stands for, and how it is written. -/
def Piece.value : Piece code → List α
  | .itself x _ _ _ => [x]
  | .escaped _ x => [x]
  | .quoted _ _ run _ => run.map Inner.symbol

def Piece.text : Piece code → List α
  | .itself x _ _ _ => [x]
  | .escaped escape x => [escape.val, x]
  | .quoted _ opening run closing => opening.val :: (run.flatMap Inner.text ++ [closing.val])

/-- **An argument as it is written.**  There are arguments without pieces to write, but none that is empty. -/
structure Written (code : α → Nat) where
  pieces : List (Piece code)
  nonempty : pieces.flatMap Piece.value ≠ []

def Written.value (w : Written code) : List α := w.pieces.flatMap Piece.value

def Written.text (w : Written code) : List α := w.pieces.flatMap Piece.text

/-- **A way of writing arguments**, each with the blanks before it. -/
structure Writing (code : α → Nat) where
  written : List (List { x : α // code x ∈ blankCodes } × Written code)
  after : List { x : α // code x ∈ blankCodes }
  separated : ∀ w ∈ written.tail, w.1 ≠ []

/-- The arguments that are written, and the text that they are written in. -/
def Writing.args (w : Writing code) : List (List α) := w.written.map fun w => w.2.value

def Writing.text (w : Writing code) : List α :=
  w.written.flatMap (fun w => w.1.map (·.val) ++ w.2.text) ++ w.after.map (·.val)

/-! ## Reading -/

namespace Scan

variable {current : List α} {tokens : List (List α)}

/-- The arguments that have been read once the one being read ends. -/
def closed (current : List α) (tokens : List (List α)) : List (List α) :=
  if current.isEmpty then tokens else current.reverse :: tokens

theorem close_outside : close ⟨none, false, current, tokens⟩ = ⟨none, false, [], closed current tokens⟩ := by
  cases current <;> rfl

theorem finish_outside : finish ⟨none, false, current, tokens⟩ = (closed current tokens).reverse := by
  rw [finish, close_outside]

/-- Inside a pair of marks everything but the backslash and the mark itself is taken as it is, blanks included. -/
theorem foldl_inner (i : Inner code mark) : i.text.foldl (step (signBy code)) ⟨some mark, false, current, tokens⟩ =
    ⟨some mark, false, i.symbol :: current, tokens⟩ := by
  cases i with
  | itself x unmarked unescaping =>
    simp only [Inner.text, List.foldl_cons, List.foldl_nil, step, Bool.false_eq_true, if_false, signBy]
    cases hsign : Sign.ofCode (code x) with
    | blank => rfl
    | quote other =>
      have hother : mark ≠ other := by
        rintro rfl
        exact unmarked (Sign.ofCode_eq_quote.1 hsign)
      simp only [hother, if_false]
      rfl
    | escape => exact absurd (Sign.ofCode_eq_escape.1 hsign) unescaping
    | plain => rfl
  | escaped escape x =>
    have hsign : Sign.ofCode (code escape.val) = .escape := Sign.ofCode_eq_escape.2 escape.property
    simp [Inner.text, Inner.symbol, step, signBy, hsign, push]

theorem foldl_run : ∀ (run : List (Inner code mark)) (current : List α),
    (run.flatMap Inner.text).foldl (step (signBy code)) ⟨some mark, false, current, tokens⟩ =
      ⟨some mark, false, (run.map Inner.symbol).reverse ++ current, tokens⟩
  | [], _ => rfl
  | i :: run, current => by
    rw [List.flatMap_cons, List.foldl_append, foldl_inner, foldl_run run, List.map_cons, List.reverse_cons,
      List.append_assoc]
    rfl

/-- A piece adds what it stands for to the argument that is being read, and leaves no mark open. -/
theorem foldl_piece (p : Piece code) : p.text.foldl (step (signBy code)) ⟨none, false, current, tokens⟩ =
    ⟨none, false, p.value.reverse ++ current, tokens⟩ := by
  cases p with
  | itself x unblank unmarked unescaping =>
    simp only [Piece.text, List.foldl_cons, List.foldl_nil, step, Bool.false_eq_true, if_false, signBy]
    cases hsign : Sign.ofCode (code x) with
    | blank => exact absurd (Sign.ofCode_eq_blank.1 hsign) unblank
    | quote mark => exact absurd (Sign.ofCode_eq_quote.1 hsign) (unmarked mark)
    | escape => exact absurd (Sign.ofCode_eq_escape.1 hsign) unescaping
    | plain => rfl
  | escaped escape x =>
    have hsign : Sign.ofCode (code escape.val) = .escape := Sign.ofCode_eq_escape.2 escape.property
    simp [Piece.text, Piece.value, step, signBy, hsign, push]
  | quoted mark opening run closing =>
    have hopening : Sign.ofCode (code opening.val) = .quote mark := Sign.ofCode_eq_quote.2 opening.property
    have hclosing : Sign.ofCode (code closing.val) = .quote mark := Sign.ofCode_eq_quote.2 closing.property
    have hopen : step (signBy code) ⟨none, false, current, tokens⟩ opening.val = ⟨some mark, false, current, tokens⟩ := by
      simp [step, signBy, hopening]
    rw [Piece.text, List.foldl_cons, hopen, List.foldl_append, foldl_run]
    simp [step, signBy, hclosing, Piece.value]

theorem foldl_pieces : ∀ (pieces : List (Piece code)) (current : List α),
    (pieces.flatMap Piece.text).foldl (step (signBy code)) ⟨none, false, current, tokens⟩ =
      ⟨none, false, (pieces.flatMap Piece.value).reverse ++ current, tokens⟩
  | [], _ => rfl
  | p :: pieces, current => by
    rw [List.flatMap_cons, List.foldl_append, foldl_piece, foldl_pieces pieces, List.flatMap_cons, List.reverse_append,
      List.append_assoc]

/-- A blank outside marks ends the argument that is being read, if there is one. -/
theorem step_blank {x : α} (blank : code x ∈ blankCodes) (current : List α) (tokens : List (List α)) :
    step (signBy code) ⟨none, false, current, tokens⟩ x = ⟨none, false, [], closed current tokens⟩ := by
  rw [← close_outside]
  simp [step, signBy, Sign.ofCode_eq_blank.2 blank]

theorem foldl_blanks : ∀ (blanks : List { x : α // code x ∈ blankCodes }) (current : List α) (tokens : List (List α)),
    blanks ≠ [] ∨ current = [] → (blanks.map (·.val)).foldl (step (signBy code)) ⟨none, false, current, tokens⟩ =
      close ⟨none, false, current, tokens⟩
  | [], _, _, h => by
    rw [h.resolve_left (· rfl)]
    rfl
  | blank :: blanks, current, tokens, _ => by
    rw [List.map_cons, List.foldl_cons, step_blank blank.property, foldl_blanks blanks [] _ (.inr rfl), close_outside,
      close_outside]
    rfl

theorem finish_blanks (blanks : List { x : α // code x ∈ blankCodes }) :
    ((blanks.map (·.val)).foldl (step (signBy code)) ⟨none, false, current, tokens⟩).finish =
      finish ⟨none, false, current, tokens⟩ := by
  cases blanks with
  | nil => rfl
  | cons blank blanks =>
    rw [foldl_blanks _ _ _ (.inl (List.cons_ne_nil _ _)), close_outside, finish_outside, finish_outside]
    rfl

/-- What is written after some symbols is read after what they come to, if blanks stand between the two. -/
theorem finish_written (after : List { x : α // code x ∈ blankCodes }) :
    ∀ (written : List (List { x : α // code x ∈ blankCodes } × Written code)) (current : List α)
      (tokens : List (List α)), (current = [] ∧ ∀ w ∈ written.tail, w.1 ≠ []) ∨ (∀ w ∈ written, w.1 ≠ []) →
      ((written.flatMap (fun w => w.1.map (·.val) ++ w.2.text) ++ after.map (·.val)).foldl (step (signBy code))
        ⟨none, false, current, tokens⟩).finish =
        finish ⟨none, false, current, tokens⟩ ++ written.map fun w => w.2.value
  | [], _, _, _ => by
    rw [List.flatMap_nil, List.nil_append, finish_blanks, List.map_nil, List.append_nil]
  | (blanks, w) :: written, current, tokens, h => by
    have hblanks : blanks ≠ [] ∨ current = [] := h.elim (fun h => .inr h.1) fun h => .inl (h _ List.mem_cons_self)
    have hrest : ∀ w ∈ written, w.1 ≠ [] := h.elim (fun h => h.2) fun h w hw => h w (List.mem_cons_of_mem _ hw)
    rw [List.flatMap_cons, List.append_assoc, List.append_assoc, List.foldl_append, List.foldl_append,
      foldl_blanks _ _ _ hblanks, close_outside, Written.text, foldl_pieces, finish_written after written _ _ (.inr hrest),
      List.append_nil]
    -- the argument just read is not empty, so it ends here and not before
    have hvalue : (w.pieces.flatMap Piece.value).reverse.isEmpty = false := by simpa using w.nonempty
    simp only [finish_outside, closed, hvalue, List.reverse_reverse, List.reverse_cons, List.append_assoc,
      List.map_cons, List.cons_append, List.nil_append, Written.value, if_false, Bool.false_eq_true]

/-- **What is written is read.** -/
theorem run_text (w : Writing code) : run (signBy code) w.text = w.args :=
  finish_written w.after w.written [] [] (.inl ⟨rfl, w.separated⟩)

end Scan

theorem value_escaped (escape : { x : α // code x = escapeCode }) (arg : List α) :
    (arg.map (Piece.escaped escape)).flatMap Piece.value = arg := by
  rw [List.flatMap_map]
  exact List.flatMap_singleton' arg

/-- A way of writing arguments: every symbol after a backslash, and a blank before every argument. -/
def Writing.escaping (escape : { x : α // code x = escapeCode }) (blank : { x : α // code x ∈ blankCodes })
    (args : List { arg : List α // arg ≠ [] }) : Writing code where
  written := args.map fun arg =>
    ([blank], ⟨arg.val.map (.escaped escape), by rw [value_escaped]; exact arg.property⟩)
  after := []
  separated := by
    intro w hw
    obtain ⟨arg, -, rfl⟩ := List.mem_map.1 (List.mem_of_mem_tail hw)
    exact List.cons_ne_nil _ _

theorem Writing.args_escaping (escape : { x : α // code x = escapeCode }) (blank : { x : α // code x ∈ blankCodes })
    (args : List { arg : List α // arg ≠ [] }) : (Writing.escaping escape blank args).args = args.map (·.val) := by
  rw [Writing.args, Writing.escaping, List.map_map]
  exact List.map_congr_left fun arg _ => value_escaped escape arg.val

theorem tokens_eq_run (t : Text) : tokens t = Scan.run (signBy Glyph.code) t := by
  have hsign : Sign.ofGlyph = signBy Glyph.code := funext Sign.ofGlyph_eq
  rw [tokens, hsign]

/-- **However arguments are written, they are what is read**, and they can be written unless one is empty.  The same goes
for symbols that are no glyphs, as long as they have codes. -/
theorem tokens_written :
    (∀ args : List { arg : Text // arg ≠ [] }, ∃ w : Writing Glyph.code, w.args = args.map (·.val)) ∧
    (∀ w : Writing Glyph.code, tokens w.text = w.args) ∧
    ∀ w : Writing (fun n : Nat => n), Scan.run Sign.ofCode w.text = w.args := by
  refine ⟨fun args => ?_, fun w => ?_, Scan.run_text⟩
  · exact ⟨.escaping ⟨.char '\\', rfl⟩ ⟨.char ' ', .head _⟩ args, Writing.args_escaping _ _ args⟩
  · rw [tokens_eq_run, Scan.run_text]

example : tokens "a' b'\\ c \"\" d\\'" = [("a b c" : Text), ("d'" : Text)] := by rfl

end ScriptDriver.ResponseFile
