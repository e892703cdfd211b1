import ScriptDriver.Proofs.File.Atomicity
/-!
# Parts — what a written path is made of

The parts of a path that was read are names: none is empty or a dot, and none has a separator in it.  A path of several
parts is written with a separator between them, so its parts are found again where the text is cut (`splitOn_toText`).
-/
namespace ScriptDriver.File

open File.Path (telling)

/-! ## Cutting a text -/

section
variable {p : Glyph → Bool} {piece : Text}

theorem splitOn_plain (plain : ∀ g ∈ piece, p g = false) : Text.splitOn p piece = [piece] := by
  obtain ⟨pieces, last, hcut, happend⟩ := splitOn_append p []
  have h := happend piece plain
  rw [List.nil_append] at h
  obtain ⟨rfl, hlast⟩ := List.append_inj' (hcut.symm.trans (List.nil_append [[]]).symm) rfl
  rw [h, List.singleton_inj.1 hlast]
  rfl

theorem splitOn_separated_cons {g : Glyph} (hg : p g = true) (rest : Text) :
    ∀ {piece : Text}, (∀ g ∈ piece, p g = false) → Text.splitOn p (piece ++ g :: rest) = piece :: Text.splitOn p rest
  | [], _ => by
    obtain ⟨pieces, last, hcut, -⟩ := splitOn_append p rest
    rw [List.nil_append, Text.splitOn, hcut]
    cases pieces <;> simp [hg]
  | a :: piece, plain => by
    obtain ⟨ha, hpiece⟩ := List.forall_mem_cons.1 plain
    rw [List.cons_append, Text.splitOn, splitOn_separated_cons hg rest hpiece]
    simp [ha]

/-- A text with a separator in it is cut into several pieces. -/
theorem splitOn_several {t : Text} {g : Glyph} (hmem : g ∈ t) (hg : p g = true) : 2 ≤ (Text.splitOn p t).length := by
  induction t with
  | nil => cases hmem
  | cons a t ih =>
    obtain ⟨pieces, last, hcut, -⟩ := splitOn_append p t
    by_cases ha : p a = true
    · have hcons := splitOn_separated_cons ha t (List.forall_mem_nil _)
      rw [List.nil_append] at hcons
      rw [hcons, hcut]
      simp
    · have hlater : g ∈ t := (List.mem_cons.1 hmem).resolve_left fun heq => ha (heq ▸ hg)
      have hlong := ih hlater
      rw [hcut] at hlong
      rw [Text.splitOn, hcut]
      cases pieces with
      | nil => simp at hlong
      | cons first pieces => simp [ha]

end

namespace Path

/-- **A path whose parts are names.** -/
structure Plain (path : Path) : Prop where
  told : telling path.parts = path.parts
  whole : ∀ part ∈ path.parts, ∀ g ∈ part, isSeparator g = false

theorem mem_telling {pieces : List Text} {piece : Text} :
    piece ∈ telling pieces ↔ piece ∈ pieces ∧ piece ≠ [] ∧ piece ≠ "." := by
  simp [telling, and_comm]

theorem telling_eq_self {pieces : List Text} (h : ∀ piece ∈ pieces, piece ≠ [] ∧ piece ≠ ".") : telling pieces = pieces := by
  unfold telling
  rw [List.filter_filter]
  exact List.filter_eq_self.2 fun piece hpiece => by simpa using (h piece hpiece).symm

theorem plain_of_parts {path : Path} (h : ∀ part ∈ path.parts, (part ≠ [] ∧ part ≠ ".") ∧ ∀ g ∈ part, isSeparator g = false) :
    path.Plain := ⟨telling_eq_self fun part hpart => (h part hpart).1, fun part hpart => (h part hpart).2⟩

theorem Plain.parts {path : Path} (h : path.Plain) {part : Text} (hpart : part ∈ path.parts) :
    (part ≠ [] ∧ part ≠ ".") ∧ ∀ g ∈ part, isSeparator g = false := by
  have htold : part ∈ telling path.parts := by rwa [h.told]
  exact ⟨(mem_telling.1 htold).2, h.whole part hpart⟩

/-- **The parts of a path that was read are names.** -/
theorem ofText_plain (t : Text) : (ofText t).Plain := by
  refine plain_of_parts fun part hpart => ?_
  obtain ⟨hpiece, htold⟩ := mem_telling.1 (show part ∈ telling (Text.splitOn isSeparator t) from hpart)
  exact ⟨htold, fun g hg => (mem_of_mem_splitOn isSeparator t hpiece g hg).2⟩

theorem Plain.parent {path : Path} (h : path.Plain) : path.parent.Plain :=
  plain_of_parts fun _ hpart => h.parts (List.dropLast_subset _ hpart)

theorem Plain.join {path other : Path} (h : path.Plain) (h' : other.Plain) : (path.join other).Plain := by
  unfold Path.join
  split
  · exact h'
  · exact plain_of_parts fun _ hpart => (List.mem_append.1 hpart).elim h.parts h'.parts

theorem splitOn_joinWith : ∀ {parts : List Text}, parts ≠ [] → (∀ part ∈ parts, ∀ g ∈ part, isSeparator g = false) →
    Text.splitOn isSeparator (Text.joinWith "/" parts) = parts
  | [part], _, h => by rw [joinWith_singleton, splitOn_plain (h part List.mem_cons_self)]
  | part :: next :: parts, _, h => by
    obtain ⟨hpart, hrest⟩ := List.forall_mem_cons.1 h
    rw [joinWith_cons_cons]
    exact (splitOn_separated_cons rfl _ hpart).trans (congrArg _ (splitOn_joinWith (List.cons_ne_nil _ _) hrest))

/-- **A relative path is cut into its parts** where it is written. -/
theorem splitOn_toText {path : Path} (h : path.Plain) (relative : path.anchor = .here) (some : path.parts ≠ []) :
    Text.splitOn isSeparator path.toText = path.parts := by
  unfold toText
  rw [if_neg fun hnone => some hnone.2, relative]
  exact splitOn_joinWith some h.whole

end Path
end ScriptDriver.File
