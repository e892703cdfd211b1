import ScriptDriver.Proofs.Text.Bytes
import ScriptDriver.Proofs.Text.Decoding
import ScriptDriver.ResponseFile.Token
/-!
# Bytewise — response files read byte by byte

The machine that reads arguments may as well run on the bytes of a file: what plays a part in it is ASCII, so every
character of several bytes is plain, and so is each of its bytes.  If a backslash takes the first of these, the others are
taken anyway.  So the arguments in a text, as bytes, are those in its bytes (`tokens_ofBytes`).
-/
namespace ScriptDriver.ResponseFile

variable {α β : Type} {sign : α → Sign} {sign' : β → Sign}

/-- **How a symbol is spelled in other symbols**: by one that plays the same part, or, if it is plain, by plain ones. -/
inductive Spelled (sign : α → Sign) (sign' : β → Sign) (x : α) : List β → Prop
  | one (y : β) (same : sign' y = sign x) : Spelled sign sign' x [y]
  | plain (h : sign x = .plain) (y : β) (ys : List β) (all : ∀ z ∈ y :: ys, sign' z = .plain) :
    Spelled sign sign' x (y :: ys)

namespace Scan

/-- The machine after the spellings of what it has read. -/
def spell (f : α → List β) (s : Scan α) : Scan β where
  quote := s.quote
  escaped := s.escaped
  current := s.current.flatMap fun x => (f x).reverse
  tokens := s.tokens.map (·.flatMap f)

theorem step_plain (s : Scan α) {x : α} (h : sign x = .plain) : step sign s x = s.push x := by
  rw [step, h]
  split <;> rfl

theorem foldl_plain : ∀ (ys : List α) (s : Scan α), s.escaped = false → (∀ y ∈ ys, sign y = .plain) →
    ys.foldl (step sign) s = { s with current := ys.reverse ++ s.current }
  | [], _, _, _ => rfl
  | y :: ys, s, hs, hall => by
    have hmore := foldl_plain ys (s.push y) rfl fun z hz => hall z (List.mem_cons_of_mem y hz)
    rw [List.foldl_cons, step_plain s (hall y List.mem_cons_self), hmore, List.reverse_cons, List.append_assoc]
    simp only [push, List.singleton_append, hs]

section
variable {f : α → List β}

theorem spell_push (s : Scan α) {x : α} {y : β} (h : f x = [y]) : (s.push x).spell f = (s.spell f).push y := by
  simp only [spell, push, List.flatMap_cons, h, List.reverse_singleton, List.singleton_append]

theorem spell_close (nonempty : ∀ x, f x ≠ []) (s : Scan α) : s.close.spell f = (s.spell f).close := by
  obtain ⟨quote, escaped, current, tokens⟩ := s
  cases current with
  | nil => rfl
  | cons x current =>
    have hsome : ((x :: current).flatMap fun x => (f x).reverse).isEmpty = false := by simp [nonempty x]
    simp only [close, spell, hsome, List.isEmpty_cons, Bool.false_eq_true, if_false, List.flatMap_nil, List.map_cons,
      List.flatMap_reverse]
    rfl

/-- **One step on a symbol is the steps on its spelling.** -/
theorem foldl_spelled (nonempty : ∀ x, f x ≠ []) (s : Scan α) {x : α} (h : Spelled sign sign' x (f x)) :
    (f x).foldl (step sign') (s.spell f) = (step sign s x).spell f := by
  generalize hf : f x = spelling at h
  cases h with
  | one y same =>
    rw [List.foldl_cons, List.foldl_nil, step, step, same, ← spell_push s hf, ← spell_close nonempty]
    obtain ⟨quote, escaped, current, tokens⟩ := s
    cases escaped with
    | true => rfl
    | false =>
      cases sign x with
      | blank => cases quote <;> rfl
      | quote mark =>
        cases quote with
        | none => rfl
        | some opened => by_cases hm : opened = mark <;> simp [spell, hm]
      | escape => rfl
      | plain => rfl
  | plain hx y ys all =>
    have hys : ∀ z ∈ ys, sign' z = .plain := fun z hz => all z (List.mem_cons_of_mem y hz)
    rw [List.foldl_cons, step_plain _ (all y List.mem_cons_self), foldl_plain ys _ rfl hys, step_plain s hx]
    simp only [spell, push, List.flatMap_cons, hf, List.reverse_cons, List.append_assoc, List.singleton_append]

theorem foldl_spell (nonempty : ∀ x, f x ≠ []) : ∀ (xs : List α), (∀ x ∈ xs, Spelled sign sign' x (f x)) →
    ∀ s : Scan α, (xs.flatMap f).foldl (step sign') (s.spell f) = (xs.foldl (step sign) s).spell f
  | [], _, _ => rfl
  | x :: xs, h, s => by
    rw [List.flatMap_cons, List.foldl_append, foldl_spelled nonempty s (h x List.mem_cons_self), List.foldl_cons,
      foldl_spell nonempty xs fun y hy => h y (List.mem_cons_of_mem x hy)]

/-- **Arguments in a spelled text are the spelled arguments.** -/
theorem run_spelled (nonempty : ∀ x, f x ≠ []) {xs : List α} (h : ∀ x ∈ xs, Spelled sign sign' x (f x)) :
    run sign' (xs.flatMap f) = (run sign xs).map (·.flatMap f) := by
  have hstart : (start : Scan β) = (start : Scan α).spell f := rfl
  rw [run, run, hstart, foldl_spell nonempty xs h, finish, finish, ← spell_close nonempty, List.map_reverse]
  rfl

end

/-! ## What is kept -/

/-- What the machine has put into arguments, in order. -/
def kept (s : Scan α) : List α := s.tokens.reverse.flatten ++ s.current.reverse

theorem kept_push (s : Scan α) (x : α) : (s.push x).kept = s.kept ++ [x] := by
  simp only [kept, push, List.reverse_cons, List.append_assoc]

theorem kept_close (s : Scan α) : s.close.kept = s.kept := by
  unfold close
  split
  · rfl
  · simp [kept]

theorem flatten_finish (s : Scan α) : s.finish.flatten = s.kept := by
  have hcurrent : s.close.current = [] := by
    unfold close
    split
    · rename_i h
      exact List.isEmpty_iff.1 h
    · rfl
  rw [← kept_close, kept, hcurrent, List.reverse_nil, List.append_nil, finish]

/-- **What one step does**: it takes the symbol, or it drops one that plays a part, and at most ends the argument. -/
theorem step_cases (sign : α → Sign) (s : Scan α) (x : α) : step sign s x = s.push x ∨
    sign x ≠ .plain ∧ (step sign s x = s.close ∨ ∃ quote escaped, step sign s x = { s with quote, escaped }) := by
  unfold step
  split
  · exact .inl rfl
  cases hx : sign x with
  | blank =>
    dsimp only
    split
    · exact .inl rfl
    · exact .inr ⟨nofun, .inl rfl⟩
  | quote mark =>
    dsimp only
    split
    · exact .inr ⟨nofun, .inr ⟨some mark, s.escaped, rfl⟩⟩
    · split
      · exact .inr ⟨nofun, .inr ⟨none, s.escaped, rfl⟩⟩
      · exact .inl rfl
  | escape => exact .inr ⟨nofun, .inr ⟨s.quote, true, rfl⟩⟩
  | plain => exact .inl rfl

variable {p : α → Bool}

theorem kept_step (plain : ∀ x, p x = true → sign x = .plain) (s : Scan α) (x : α) :
    (step sign s x).kept.filter p = s.kept.filter p ++ [x].filter p := by
  rcases step_cases sign s x with h | ⟨hx, h⟩
  · rw [h, kept_push, List.filter_append]
  · -- what is dropped plays a part, so it is not among the symbols that are counted
    have hp : ¬ p x = true := fun hp => hx (plain x hp)
    have hkept : (step sign s x).kept = s.kept := by
      rcases h with h | ⟨quote, escaped, h⟩ <;> rw [h]
      · exact s.kept_close
      · rfl
    rw [hkept, List.filter_cons_of_neg hp, List.filter_nil, List.append_nil]

theorem kept_foldl (plain : ∀ x, p x = true → sign x = .plain) : ∀ (xs : List α) (s : Scan α),
    (xs.foldl (step sign) s).kept.filter p = s.kept.filter p ++ xs.filter p
  | [], s => (List.append_nil _).symm
  | x :: xs, s => by
    rw [List.foldl_cons, kept_foldl plain xs, kept_step plain, List.append_assoc, ← List.filter_append,
      List.singleton_append]

/-- **Plain symbols are neither lost nor moved.** -/
theorem flatten_run (plain : ∀ x, p x = true → sign x = .plain) (xs : List α) :
    (run sign xs).flatten.filter p = xs.filter p := by
  rw [run, flatten_finish, kept_foldl plain]
  rfl

end Scan

/-! ## Glyphs and their bytes -/

theorem Sign.ofCode_high {n : Nat} (h : 0x80 ≤ n) : Sign.ofCode n = .plain := by
  unfold Sign.ofCode
  rw [if_neg (by omega), if_neg (by omega), if_neg (by omega), if_neg (by omega)]

theorem spelled_bytes (g : Glyph) (h : ∀ b, g = .raw b → 0x80 ≤ b.toNat) :
    Spelled Sign.ofGlyph Sign.ofByte g g.bytes := by
  cases g with
  | raw b => exact .one b (Sign.ofCode_high (h b rfl))
  | char c =>
    rw [Glyph.bytes]
    by_cases hc : c.toNat < 0x80
    · rw [Utf8.bytesOf_ascii hc]
      refine .one _ ?_
      rw [Sign.ofByte, Nat.toUInt8_eq, UInt8.toNat_ofNat_of_lt' (Nat.lt_trans hc (by decide))]
      rfl
    · have hhigh : ∀ b ∈ Utf8.bytesOf c.toNat, Sign.ofByte b = .plain := fun b hb =>
        Sign.ofCode_high (Utf8.high_of_mem (Nat.not_lt.1 hc) hb)
      have hsome := Glyph.bytes_ne_nil (.char c)
      rw [Glyph.bytes] at hsome
      obtain ⟨b, bs, hbytes⟩ := List.exists_cons_of_ne_nil hsome
      have hplain : Sign.ofGlyph (.char c) = .plain := Sign.ofCode_high (Nat.not_lt.1 hc)
      rw [hbytes] at hhigh ⊢
      exact .plain hplain b bs hhigh

theorem Sign.ofGlyph_wide (g : Glyph) (h : g.isWide = true) : Sign.ofGlyph g = .plain := by
  cases g with
  | raw b => rfl
  | char c => exact Sign.ofCode_high (of_decide_eq_true h)

/-- **Response files are read byte for byte.**  The text of a file stands for its bytes; the arguments in the text stand
for the arguments that the machine finds in the bytes; and the characters of several bytes and the bytes that are no
character all stand in the arguments, whole and in order. -/
theorem tokens_ofBytes (bytes : List UInt8) :
    Text.toBytes (Text.ofBytes bytes) = bytes ∧
    (tokens (Text.ofBytes bytes)).map Text.toBytes = Scan.run Sign.ofByte bytes ∧
    (tokens (Text.ofBytes bytes)).flatten.filter Glyph.isWide = (Text.ofBytes bytes).filter Glyph.isWide := by
  have hspelled : ∀ g ∈ Text.ofBytes bytes, Spelled Sign.ofGlyph Sign.ofByte g g.bytes := by
    intro g hg
    refine spelled_bytes g fun b hraw => ?_
    subst hraw
    exact Text.high_of_mem_ofBytes hg
  refine ⟨Text.toBytes_ofBytes bytes, ?_, Scan.flatten_run Sign.ofGlyph_wide _⟩
  have hrun := Scan.run_spelled Glyph.bytes_ne_nil hspelled
  rw [← Text.toBytes, Text.toBytes_ofBytes] at hrun
  exact hrun.symm

/-- A backslash before a character of two bytes, and before a byte that begins one and breaks off; and a carriage return
in quotes. -/
example : tokens (Text.ofBytes [0x5C, 0xC3, 0xA9, 0x5C, 0xC3, 0x20, 0x22, 0x0D, 0x0A, 0x22]) =
    [[.char 'é', .raw 0xC3], [.char '\r', .char '\n']] := by rfl

end ScriptDriver.ResponseFile
