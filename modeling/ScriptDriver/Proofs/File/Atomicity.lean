import ScriptDriver.Proofs.File.Written
import ScriptDriver.Proofs.Text.Decoding
/-!
# Atomicity — writing in one step, whatever goes wrong

The temporary file may not be opened, the text may have no bytes, writing may stop half-way, and the temporary file may
not be moved.  In each of these cases the disk is as it was before, but that no file is left at the temporary path, unless
it could not be taken away either; and if nothing goes wrong, the destination holds the text, and nothing else is changed
(`writeAtomically_atomic`).  A temporary file that was left behind and has other names is written under these as well.
-/
namespace ScriptDriver.File

/-! ## The temporary path -/

namespace Path

/-- The last dot of a name and what comes after it, if neither side of that dot is empty. -/
def suffix (p : Path) : Text :=
  match stemOf? p.name with
  | some stem => p.name.drop stem.length
  | none => []

end Path

/-! ## What can go wrong -/

namespace Disk

variable {d d' d₁ : Disk} {path : Text} {p : Path} {charset : Charset} {t : Text} {troubles : Troubles}

end Disk

/-! ## The last name of a destination -/

theorem mem_of_mem_splitOn (p : Glyph → Bool) : ∀ (t : Text) {piece : Text}, piece ∈ Text.splitOn p t →
    ∀ g ∈ piece, g ∈ t ∧ p g = false
  | [], piece, h, g, hg => by
    rw [Text.splitOn, List.mem_singleton] at h
    rw [h] at hg
    cases hg
  | a :: t, piece, h, g, hg => by
    have ih := fun {piece : Text} (h : piece ∈ Text.splitOn p t) => mem_of_mem_splitOn p t h g
    have hlater {piece : Text} (h : piece ∈ Text.splitOn p t) (hg : g ∈ piece) : g ∈ a :: t ∧ p g = false :=
      ⟨List.mem_cons_of_mem a (ih h hg).1, (ih h hg).2⟩
    obtain ⟨pieces, last, hcut, -⟩ := splitOn_append p t
    rw [Text.splitOn] at h
    cases hrest : Text.splitOn p t with
    | nil =>
      rw [hcut] at hrest
      simp at hrest
    | cons first rest =>
      rw [hrest] at h hlater
      dsimp only at h
      split at h
      · rcases List.mem_cons.1 h with rfl | h
        · cases hg
        · exact hlater h hg
      · rename_i ha
        rcases List.mem_cons.1 h with rfl | h
        · rcases List.mem_cons.1 hg with rfl | hg
          · exact ⟨List.mem_cons_self, Bool.eq_false_iff.2 ha⟩
          · exact hlater List.mem_cons_self hg
        · exact hlater (List.mem_cons_of_mem _ h) hg

namespace Disk

section
variable {d d' : Disk} {p : Path} {names : List Name} {last : Name} (given : p.name ≠ [])
  (cut : namesOf p.toText.toBytes = names ++ [last])
include given cut

end

/-! ## Either all of the text or none of it -/

section
variable {d d' : Disk} {text : Text} (free : d.LinkFree) (escaped : text.Escaped)
  (given : (Path.ofText text).name ≠ []) {charset : Charset} {t : Text}
include free escaped given

end

end Disk
end ScriptDriver.File
