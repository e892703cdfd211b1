import ScriptDriver.File.Atomic
/-!
# Refusal — how actions on a disk fail

Looking a path up and changing what is there fail in two ways only: the file system refuses, or the path has a null
character and never reaches it.
-/
namespace ScriptDriver.File

/-- **A fault of a path**: a refusal, unless the path has a null character. -/
def Fault.IsOf (path : Text) (e : Fault) : Prop :=
  e.isRefusal = true ∨ (e = .nullCharacter ∧ 0 ∈ path.toBytes)

theorem Fault.IsOf.refused (path : Text) (r : Refused) : (Fault.refused r).IsOf path := .inl rfl

namespace Disk

theorem walk_error {d : Disk} {follow : Bool} {path : Text} {e : Fault} (h : d.walk follow path = .error e) :
    e.IsOf path := by
  unfold walk at h
  simp only at h
  split at h
  · rename_i hnull
    cases h
    exact .inr ⟨rfl, by simpa using hnull⟩
  · split at h
    · cases h
      exact .refused path _
    · split at h
      · cases h
        exact .refused path _
      · split at h <;> cases h
        exact .refused path _

theorem locate_error {d : Disk} {path : Text} {e : Fault} (h : d.locate path = .error e) : e.IsOf path := by
  unfold locate at h
  split at h
  · rename_i hw
    cases h
    exact walk_error hw
  · cases h
    exact .refused path _
  · cases h
  · cases h
    exact .refused path _
  · cases h

theorem read_error {d : Disk} {path : Text} {e : Fault} (h : d.read path = .error e) : e.IsOf path := by
  unfold read at h
  split at h
  · rename_i hl
    cases h
    exact locate_error hl
  · cases h
  · cases h
    exact .refused path _

/-- A text with a null character is no path. -/
theorem read_of_null {d : Disk} {path : Text} (h : 0 ∈ path.toBytes) : d.read path = .error .nullCharacter := by
  have hw : d.walk true path = .error .nullCharacter := by
    unfold walk
    simp [h]
  simp only [read, locate, hw]

theorem test_error {d : Disk} {p : Entry → Bool} {path : Text} {e : Fault} (h : d.test p path = .error e) :
    e.isRefusal = true := by
  unfold test at h
  split at h
  · cases h
  · split at h <;> cases h
    rfl
  · cases h

/-! ## Changing what is there -/

theorem makeDirectory_error {d : Disk} {path : Text} {e : Fault} (h : d.makeDirectory path = .error e) :
    e.IsOf path := by
  unfold makeDirectory at h
  split at h
  · rename_i hw
    cases h
    exact walk_error hw
  · cases h
    exact .refused path _
  · split at h <;> cases h
    exact .refused path _

theorem openNew_error {d : Disk} {path : Text} {e : Fault} (h : d.openNew path = .error e) : e.IsOf path := by
  unfold openNew at h
  split at h
  · rename_i hw
    cases h
    exact walk_error hw
  · cases h
  · split at h <;> cases h
    exact .refused path _
  · cases h
    exact .refused path _

theorem replace_error {d : Disk} {source path : Text} {e : Fault} (h : d.replace source path = .error e) :
    e.IsOf source ∨ e.IsOf path := by
  unfold replace at h
  simp only at h
  split at h
  · rename_i hw
    split at h
    · cases h
      exact .inl (.refused source _)
    · cases h
      exact .inl (walk_error hw)
  · split at h
    · rename_i hw
      split at h
      · cases h
        exact .inl (.refused source _)
      · cases h
        exact .inr (walk_error hw)
    · split at h
      · cases h
        exact .inl (.refused source _)
      · cases h
        exact .inl (.refused source _)
      · cases h
        exact .inl (.refused source _)
      · split at h
        · cases h
        split at h
        · cases h
          exact .inl (.refused source _)
        split at h <;> cases h
        exact .inl (.refused source _)

theorem orDirectory_error {d : Disk} {p : Path} {path : Text} {e e' : Fault} (hfault : e.IsOf path)
    (h : d.orDirectory p e = some e') : e'.IsOf path := by
  unfold orDirectory at h
  split at h
  · split at h
    · cases h
    · cases h
      exact hfault
    · rename_i htest
      cases h
      exact .inl (test_error htest)
  · cases h
    exact hfault

/-- The directories around a file cannot be made: the file system refuses, or a path has a null character. -/
theorem makeDirectories_error (anchor : Anchor) : ∀ (parts : List Text) (d : Disk) {e : Fault},
    (d.makeDirectories anchor parts).2 = some e → ∃ path, e.IsOf path
  | [], d, e, h => by
    unfold makeDirectories at h
    split at h
    · cases h
    · rename_i hmade
      split at h
      · cases h
        exact ⟨_, makeDirectory_error hmade⟩
      · exact ⟨_, orDirectory_error (makeDirectory_error hmade) h⟩
  | part :: outer, d, e, h => by
    unfold makeDirectories at h
    simp only at h
    split at h
    · cases h
    · rename_i hmade
      split at h
      · split at h
        · rename_i houter
          cases h
          exact makeDirectories_error anchor outer d (by rw [houter])
        · split at h
          · cases h
          · rename_i hagain
            split at h
            · cases h
              exact ⟨_, makeDirectory_error hagain⟩
            · exact ⟨_, orDirectory_error (makeDirectory_error hagain) h⟩
      · exact ⟨_, orDirectory_error (makeDirectory_error hmade) h⟩

theorem ensureParent_error {d : Disk} {p : Path} {e : Fault} (h : (d.ensureParent p).2 = some e) :
    ∃ path, e.IsOf path := by
  unfold ensureParent at h
  split at h
  · rename_i hexists
    cases h
    exact ⟨[], .inl (test_error hexists)⟩
  · cases h
  · exact makeDirectories_error _ _ d h

/-- A text cannot be written: the path fails, or the text has no bytes in the charset. -/
theorem write_error {d : Disk} {path t : Text} {charset : Charset} {e : Fault}
    (h : (d.write path charset t).2 = some e) :
    e.IsOf path ∨ ∃ u, charset.encode t = .error u ∧ e = .unencodable u := by
  unfold write at h
  split at h
  · rename_i hopen
    cases h
    exact .inl (openNew_error hopen)
  · split at h
    · rename_i hencode
      cases h
      exact .inr ⟨_, hencode, rfl⟩
    · cases h

/-- **A text cannot be written in one step**: a path fails, the destination has no name, or the text has no bytes in the
charset. -/
theorem writeAtomically_error {d : Disk} {p : Path} {t : Text} {charset : Charset} {e : Fault}
    (h : (d.writeAtomically p charset t).2 = some e) :
    (∃ path, e.IsOf path) ∨ (p.name = [] ∧ e = .unnamed p) ∨ ∃ u, charset.encode t = .error u ∧ e = .unencodable u := by
  unfold writeAtomically at h
  split at h
  · rename_i hname
    cases h
    exact .inr (.inl ⟨hname, rfl⟩)
  · split at h
    · cases h
    · rename_i hfault
      cases h
      unfold writeAndReplace at hfault
      split at hfault
      · rename_i hwrite
        cases hfault
        rcases write_error (congrArg Prod.snd hwrite) with hpath | htext
        · exact .inl ⟨_, hpath⟩
        · exact .inr (.inr htext)
      · split at hfault
        · cases hfault
        · rename_i hreplace
          cases hfault
          exact .inl ((replace_error hreplace).elim (fun h => ⟨_, h⟩) fun h => ⟨_, h⟩)

end Disk
end ScriptDriver.File
