import ScriptDriver.Proofs.File.Change
/-!
# WorkingDirectory — where relative paths start from

Whatever is written or taken away on a disk, also where only a part of it succeeds, relative paths go on starting from the
same directory.  A path from the root leads to the same entry wherever they start (`locate_seenFrom`).
-/
namespace ScriptDriver.File
namespace Disk

variable {d d' : Disk} {l : Location} {path source : Text}

theorem openNew_here (h : d.openNew path = .ok (l, d')) : d'.here = d.here := by
  obtain ⟨-, rfl⟩ := openNew_cases h
  exact fill_here d _ _

theorem remove_here (h : d.remove path = .ok d') : d'.here = d.here := by
  obtain ⟨l, e, ending, -, -, rfl⟩ := remove_cases h
  rfl

theorem replace_here (h : d.replace source path = .ok d') : d'.here = d.here := by
  obtain ⟨k, e, ending, goal, -, -, -, ⟨-, rfl⟩ | ⟨-, -, -, rfl⟩⟩ := replace_cases h
  · rfl
  · rfl

theorem discard_here (d : Disk) (path : Text) : (d.discard path).here = d.here := by
  unfold discard
  split
  · rename_i hremoved
    exact remove_here hremoved
  · rfl

theorem write_here (d : Disk) (path : Text) (charset : Charset) (t : Text) :
    (d.write path charset t).1.here = d.here := by
  unfold write
  split
  · rfl
  · rename_i hopened
    split
    · exact openNew_here hopened
    · exact (fill_here _ _ _).trans (openNew_here hopened)

theorem writeAndReplace_here (d : Disk) (p : Path) (charset : Charset) (t : Text) :
    (d.writeAndReplace p charset t).1.here = d.here := by
  have hwritten := write_here d p.temporary.toText charset t
  unfold writeAndReplace
  split <;> rename_i hw <;> rw [hw] at hwritten
  · exact hwritten
  · split
    · rename_i hreplaced
      exact (replace_here hreplaced).trans hwritten
    · exact hwritten

/-- **A file written in one step leaves the working directory.** -/
theorem writeAtomically_here (d : Disk) (p : Path) (charset : Charset) (t : Text) :
    (d.writeAtomically p charset t).1.here = d.here := by
  have hreplaced := writeAndReplace_here d p charset t
  unfold writeAtomically
  split
  · rfl
  · split <;> rename_i hr <;> rw [hr] at hreplaced
    · exact hreplaced
    · exact (discard_here _ _).trans hreplaced

/-! ## Paths from the root -/

/-- The same entries with relative paths starting from another directory. -/
def seenFrom (d : Disk) (l : Location) : Disk := { d with here := l }

theorem entry?_seenFrom (d : Disk) (l j : Location) : entry? (d.seenFrom l) j = d.entry? j := rfl

theorem bars_seenFrom (d : Disk) (l j : Location) : bars (d.seenFrom l) j = d.bars j := rfl

theorem along_seenFrom (d : Disk) (l : Location) (follow : Bool) : ∀ (names : List Name) (cur : Location),
    (d.seenFrom l).along follow cur names = d.along follow cur names
  | [], _ => rfl
  | name :: rest, cur => by
    simp only [along, entry?_seenFrom, bars_seenFrom, along_seenFrom d l follow rest]

theorem walkFrom_seenFrom (d : Disk) (l : Location) (follow : Bool) : ∀ (links : Nat) (cur : Location)
    (names : List Name), (d.seenFrom l).walkFrom follow links cur names = d.walkFrom follow links cur names
  | 0, cur, names => by
    unfold walkFrom
    rw [along_seenFrom]
  | links + 1, cur, names => by
    unfold walkFrom
    simp only [along_seenFrom, walkFrom_seenFrom d l follow links]

/-- **A path from the root leads to the same entry** wherever relative paths start. -/
theorem locate_seenFrom (d : Disk) (l : Location) {path : Text} (root : startsAtRoot path.toBytes = true) :
    (d.seenFrom l).locate path = d.locate path := by
  have hwalk : (d.seenFrom l).walk true path = d.walk true path := by
    unfold walk
    simp only [root, if_true, walkFrom_seenFrom]
  unfold locate
  rw [hwalk]

end Disk
end ScriptDriver.File
