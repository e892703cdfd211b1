import ScriptDriver.Proofs.File.Parts
import ScriptDriver.Toolchain.Command
/-!
# Words — commands without words

Whatever is quoted, escaped or left unfinished in a command, it has a word as soon as there is anything but blanks in it
(`words_eq_nil_iff`).
-/
namespace ScriptDriver

/-! ## Fields -/

theorem File.exists_piece {p : Glyph → Bool} {g : Glyph} (hg : p g = false) : ∀ {t : Text}, g ∈ t →
    ∃ piece ∈ Text.splitOn p t, g ∈ piece
  | a :: t, hmem => by
    by_cases ha : p a = true
    · have hcut := splitOn_separated_cons ha t (List.forall_mem_nil _)
      rw [List.nil_append] at hcut
      have hlater : g ∈ t := (List.mem_cons.1 hmem).resolve_left fun heq => by simp [← heq, hg] at ha
      obtain ⟨piece, hpiece, hin⟩ := exists_piece hg hlater
      exact ⟨piece, by rw [hcut]; exact List.mem_cons_of_mem _ hpiece, hin⟩
    · obtain ⟨pieces, last, hrest, -⟩ := splitOn_append p t
      obtain ⟨first, more, hsplit⟩ : ∃ first more, Text.splitOn p t = first :: more := by
        rw [hrest]
        cases pieces <;> exact ⟨_, _, rfl⟩
      have hcut : Text.splitOn p (a :: t) = (a :: first) :: more := by
        rw [Text.splitOn, hsplit]
        exact if_neg ha
      rw [hcut]
      rcases List.mem_cons.1 hmem with rfl | hlater
      · exact ⟨_, List.mem_cons_self, List.mem_cons_self⟩
      · obtain ⟨piece, hpiece, hin⟩ := exists_piece hg hlater
        rw [hsplit] at hpiece
        rcases List.mem_cons.1 hpiece with rfl | hpiece
        · exact ⟨_, List.mem_cons_self, List.mem_cons_of_mem a hin⟩
        · exact ⟨piece, List.mem_cons_of_mem _ hpiece, hin⟩

theorem Text.fields_ne_nil {p : Glyph → Bool} {t : Text} {g : Glyph} (hmem : g ∈ t) (hg : p g = false) : t.fields p ≠ [] := by
  obtain ⟨piece, hpiece, hin⟩ := File.exists_piece hg hmem
  exact List.ne_nil_of_mem (List.mem_filter.2 ⟨hpiece, by simpa using List.ne_nil_of_mem hin⟩)

namespace Toolchain
namespace Splitting

/-! ## What splitting leaves -/

/-- Something has been read that is no blank. -/
def Begun (s : Splitting) : Prop := s.quoting ≠ .outside ∨ s.current.isSome ∨ s.words ≠ []

/-- A glyph that begins a quotation or an escape. -/
def isMark (g : Glyph) : Bool := g.is '\'' || g.is '"' || g.is '\\'

theorem close_words {s : Splitting} (h : s.current.isSome ∨ s.words ≠ []) : s.close.words ≠ [] := by
  unfold close
  cases hcurrent : s.current with
  | none =>
    rw [hcurrent] at h
    simpa using h
  | some word => exact List.cons_ne_nil _ _

theorem close_quoting (s : Splitting) : s.close.quoting = s.quoting := by
  unfold close
  cases s.current <;> rfl

theorem step_begun {s : Splitting} (h : s.Begun) (g : Glyph) : (s.step g).Begun := by
  unfold step
  cases hquoting : s.quoting with
  | outside =>
    have hsome : s.current.isSome ∨ s.words ≠ [] := h.resolve_left fun hne => hne hquoting
    dsimp only
    split
    · exact .inr (.inr (close_words hsome))
    repeat' split
    all_goals first | exact .inr (.inl rfl) | exact .inl nofun
  | single | double | escape | escapeInDouble =>
    dsimp only
    repeat' split
    all_goals first | exact .inr (.inl rfl) | exact .inl nofun

theorem foldl_begun : ∀ (command : Text) {s : Splitting}, s.Begun → (command.foldl step s).Begun
  | [], _, h => h
  | g :: command, _, h => foldl_begun command (step_begun h g)

theorem begun_of_word {g : Glyph} (hg : isSpace g = false) : (step {} g).Begun := by
  simp only [step, hg, Bool.false_eq_true, if_false]
  repeat' split
  all_goals first | exact .inr (.inl rfl) | exact .inl nofun

/-- A command that is all blanks leaves nothing behind, and any other command leaves something. -/
theorem foldl_blank_or_begun : ∀ command : Text,
    ((∀ g ∈ command, isSpace g = true) ∧ command.foldl step {} = {}) ∨
      ((∃ g ∈ command, isSpace g = false) ∧ (command.foldl step {}).Begun)
  | [] => .inl ⟨nofun, rfl⟩
  | g :: command => by
    by_cases hg : isSpace g = true
    · have hstep : step {} g = {} := if_pos hg
      rw [List.foldl_cons, hstep]
      rcases foldl_blank_or_begun command with ⟨hblank, hfold⟩ | ⟨⟨a, ha, hword⟩, hbegun⟩
      · exact .inl ⟨List.forall_mem_cons.2 ⟨hg, hblank⟩, hfold⟩
      · exact .inr ⟨⟨a, List.mem_cons_of_mem g ha, hword⟩, hbegun⟩
    · rw [Bool.not_eq_true] at hg
      exact .inr ⟨⟨g, List.mem_cons_self, hg⟩, foldl_begun command (begun_of_word hg)⟩

/-- Without marks, splitting stays outside of quotations. -/
theorem foldl_outside : ∀ (command : Text) {s : Splitting}, s.quoting = .outside → (∀ g ∈ command, isMark g = false) →
    (command.foldl step s).quoting = .outside
  | [], _, h, _ => h
  | g :: command, s, h, hmarks => by
    obtain ⟨hg, hrest⟩ := List.forall_mem_cons.1 hmarks
    simp only [isMark, Bool.or_eq_false_iff] at hg
    refine foldl_outside command ?_ hrest
    simp only [step, h, hg, Bool.false_eq_true, if_false]
    split
    · exact (close_quoting s).trans h
    · rfl

theorem exists_mark {command : Text} (h : (command.foldl step {}).quoting ≠ .outside) : ∃ g ∈ command, isMark g = true :=
  Classical.byContradiction fun hnone => h (foldl_outside command rfl fun g hg =>
    Bool.eq_false_iff.2 fun hmark => hnone ⟨g, hg, hmark⟩)

end Splitting

open Splitting (isSpace isMark close_words)

theorem isMark_not_blank {g : Glyph} (h : isMark g = true) : g.isBlank = false := by
  simp only [isMark, Glyph.is, Bool.or_eq_true, decide_eq_true_eq] at h
  rcases h with (rfl | rfl) | rfl <;> decide

/-- **A command has no words exactly if it is all blanks.** -/
theorem words_eq_nil_iff (command : Text) : words command = [] ↔ ∀ g ∈ command, isSpace g = true := by
  unfold words shellWords?
  rcases Splitting.foldl_blank_or_begun command with ⟨hblank, hfold⟩ | ⟨⟨g, hg, hword⟩, hbegun⟩
  · rw [hfold]
    exact ⟨fun _ => hblank, fun _ => rfl⟩
  · refine ⟨fun hnil => absurd hnil ?_, fun h => absurd (h g hg) (by simp [hword])⟩
    by_cases houtside : (command.foldl Splitting.step {}).quoting = .outside
    · have hleft := close_words (hbegun.resolve_left fun hne => hne houtside)
      simp only [houtside, if_true, Option.getD_some]
      simpa using hleft
    · -- an unfinished command has a mark in it, which is no blank in the other splitting either
      obtain ⟨a, ha, hmark⟩ := Splitting.exists_mark houtside
      simp only [houtside, if_false, Option.getD_none]
      exact Text.fields_ne_nil ha (isMark_not_blank hmark)

end Toolchain
end ScriptDriver
