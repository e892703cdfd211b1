import ScriptDriver.Proofs.Backend.Batch
import ScriptDriver.Proofs.Output.DependencyPath
/-!
# RuleFiles — what dependency files hold after a batch

On a disk without links a turn makes directories, the backend changes its output, and then the turn writes its dependency
file if it is due; nothing else is changed (`play_disk`).  So a dependency file that has been written stays as it is until
a later turn writes the same file, or has it for its output (`worldAfter_holds`), and after the batch it holds what was
written to it last (`worldAfter_written`).
-/
namespace ScriptDriver.Backend

open File (Path Disk EndsIn)
open Output (dependencyByte)

def ruleFor (b : Batch) (input : Text) (pair : Text × Text) : Text := rule (pair.1 :: b.dependencyTargets) [input]

/-- How a dependency path is written on the disk. -/
def dependencyFile (pair : Text × Text) : Text := (Path.ofText pair.2).toText

/-- **Two paths that lead to the same place** on a disk. -/
def SameFile (d : Disk) (path path' : Text) : Prop :=
  ∃ place, d.walk true path = .ok place ∧ d.walk true path' = .ok place

/-- **A backend that keeps to its output**: on a disk without links, the run for a script changes at most the file at the
path of its output. -/
def Tidy (c : Compiler) (b : Batch) (w : World Session) : Prop :=
  ∀ pair ∈ b.plan.outputs, ∀ (command : List Text) (outcome : Outcome) (d : Disk),
    c.command w.disk.workingDirectory (scriptOf b pair) = .ok command → d.Unlinked →
      d.OnlyAt (w.outside.touch ⟨command, c.toolchain.timeout⟩ outcome d) pair.2

theorem writeRule_ok {path text : Text} {d d' : Disk} {b : UInt8} (unlinked : d.Unlinked)
    (ends : EndsIn (Path.ofText path).toText b) (h : writeRule path text d = (d', none)) :
    ∃ d₁ l bytes, Charset.utf8.encode text = .ok bytes ∧ d.Grows d₁ ∧
      d₁.Wrote d' (Path.ofText path).toText l bytes := by
  have hgrows := d.ensureParent_grows (Path.ofText path)
  unfold writeRule at h
  split at h
  · cases h
  rename_i d₁ hmade
  rw [hmade] at hgrows
  obtain ⟨l, bytes, hencode, hwrote⟩ := Disk.writeAtomically_ok (hgrows.unlinked unlinked) ends h
  exact ⟨d₁, l, bytes, hencode, hgrows, hwrote⟩

theorem encode_of_writeRule {path text : Text} {d d' : Disk} (h : writeRule path text d = (d', none)) :
    ∃ bytes, Charset.utf8.encode text = .ok bytes := by
  unfold writeRule at h
  split at h
  · cases h
  · exact Disk.encode_of_writeAtomically h

/-! ## One turn -/

/-- **A turn that nothing stands in the way of**, with a backend that keeps to its output and a dependency path that looks
like one. -/
structure Turn.Smooth (c : Compiler) (b : Batch) (t : Turn) : Prop where
  kept : t.Kept c b
  written : ∀ pair e, ¬ t.NoRule c b pair e
  ends : ∀ pair ∈ t.dependency, EndsIn (dependencyFile pair) dependencyByte
  tidy : (t.disk b).Unlinked → (t.disk b).OnlyAt (t.left c b) t.pair.2

namespace Turn

variable {c : Compiler} {b : Batch} {t : Turn}

theorem disk_grows (b : Batch) (t : Turn) : t.world.disk.Grows (t.disk b) := by
  unfold disk
  split
  · exact .refl _
  · exact Disk.ensureParent_grows _ _

/-- **What a turn does to the disk** after the backend has run: it makes directories and writes its dependency file if that
is due. -/
theorem play_disk (smooth : t.Smooth c b) (unlinked : (t.left c b).Unlinked) :
    (∃ pair d₁ l bytes, t.Due b pair ∧ Charset.utf8.encode (ruleFor b t.pair.1 pair) = .ok bytes ∧
      (t.left c b).Grows d₁ ∧ d₁.Wrote (t.play c b).2.disk (dependencyFile pair) l bytes) ∨
    (∀ pair, ¬ t.Due b pair) ∧ (t.play c b).2.disk = t.left c b := by
  by_cases hdue : ∃ pair, t.Due b pair
  · obtain ⟨pair, due⟩ := hdue
    have hwriting : t.writing c b pair = ((t.play c b).2.disk, none) := by
      rcases hw : t.writing c b pair with ⟨d, _ | e⟩
      · rw [smooth.kept.written pair due, hw]
      · exact absurd ⟨due, by rw [hw]⟩ (smooth.written pair e)
    obtain ⟨d₁, l, bytes, hencode, hmade, hwrote⟩ := writeRule_ok unlinked (smooth.ends pair due.2.2) hwriting
    exact .inl ⟨pair, d₁, l, bytes, due, hencode, hmade, hwrote⟩
  · exact .inr ⟨not_exists.1 hdue, smooth.kept.unwritten (not_exists.1 hdue)⟩

section
variable (smooth : t.Smooth c b) (unlinked : t.world.disk.Unlinked)
include smooth unlinked

theorem left_onlyAt : (t.disk b).Unlinked ∧ (t.disk b).OnlyAt (t.left c b) t.pair.2 ∧ (t.left c b).Unlinked := by
  have hmade := (disk_grows b t).unlinked unlinked
  exact ⟨hmade, smooth.tidy hmade, (smooth.tidy hmade).unlinked hmade⟩

theorem left_keeps : (t.left c b).Keeps (t.play c b).2.disk ∧ (t.play c b).2.disk.Unlinked := by
  obtain ⟨-, -, hleft⟩ := left_onlyAt smooth unlinked
  rcases play_disk smooth hleft with ⟨pair, d₁, l, bytes, -, -, hgrows, hwrote⟩ | ⟨-, hsame⟩
  · exact ⟨hgrows.keeps.trans hwrote.keeps, hwrote.unlinked⟩
  · rw [hsame]
    exact ⟨⟨rfl, rfl, fun _ h => h⟩, hleft⟩

theorem play_keeps : (t.play c b).2.disk.Unlinked ∧ t.world.disk.Keeps (t.play c b).2.disk := by
  obtain ⟨-, honly, -⟩ := left_onlyAt smooth unlinked
  obtain ⟨hkeeps, hunlinked⟩ := left_keeps smooth unlinked
  exact ⟨hunlinked, ((disk_grows b t).keeps.trans honly.keeps.1).trans hkeeps⟩

/-- A dependency file stays as it is in a turn that does not write it, and whose output it is not. -/
theorem play_holds {path : Text} {l : File.Location} {bytes : List UInt8} (held : t.world.disk.Holds path l bytes)
    (ends : EndsIn path dependencyByte)
    (other : ∀ pair k, t.Due b pair → (t.play c b).2.disk.Leads (dependencyFile pair) k → k ≠ l)
    (apart : b.outputType ≠ .dependency → ∀ k, (t.play c b).2.disk.Leads t.pair.2 k → k ≠ l) :
    (t.play c b).2.disk.Holds path l bytes := by
  obtain ⟨hmade, honly, hleft⟩ := left_onlyAt smooth unlinked
  obtain ⟨hkeeps, -⟩ := left_keeps smooth unlinked
  have hran : (t.left c b).Holds path l bytes := by
    by_cases htype : b.outputType = .dependency
    · rw [left_of_dependency c htype]
      exact held
    · exact honly.holds hmade.unshared ((disk_grows b t).holds held) fun k hk => apart htype k (hkeeps.leads hk)
  rcases play_disk smooth hleft with ⟨pair, d₁, k, content, due, -, hgrows, hwrote⟩ | ⟨-, hsame⟩
  · exact hwrote.stays (hgrows.holds hran) ends (by decide) (other pair k due hwrote.holds.leads)
  · rw [hsame]
    exact hran

end

end Turn

/-! ## Turn after turn -/

variable {c : Compiler} {b : Batch}

/-- **No turn changes what the backend does**, nor the working directory. -/
theorem turns_session : ∀ (pairs dependencies : List (Text × Text)) (w : World Session),
    ∀ t ∈ turns c b pairs dependencies w,
      t.world.outside.touch = w.outside.touch ∧ t.world.disk.workingDirectory = w.disk.workingDirectory
  | [], _, _, _, ht => by cases ht
  | pair :: pairs, dependencies, w, t, ht => by
    rcases List.mem_cons.1 ht with rfl | ht
    · exact ⟨rfl, rfl⟩
    obtain ⟨htouch, hdirectory⟩ := turns_session pairs dependencies.tail _ t ht
    obtain ⟨hhere, hsession⟩ := Turn.play_session c b ⟨pair, dependencies.head?, w⟩
    refine ⟨htouch.trans ?_, hdirectory.trans ?_⟩
    · rcases hsession with h | ⟨r, -, h⟩
      · rw [h]
      · rw [h, Session.run_touch]
    · unfold Disk.workingDirectory
      rw [hhere]

/-- In every turn of a batch the backend keeps to its output. -/
theorem Tidy.turn {w : World Session} (tidy : Tidy c b w) {t : Turn} (ht : t ∈ Turn.all c b w)
    (unlinked : (t.disk b).Unlinked) : (t.disk b).OnlyAt (t.left c b) t.pair.2 := by
  obtain ⟨htouch, hdirectory⟩ := turns_session _ _ w t ht
  have hlisted : t.pair ∈ b.plan.outputs := by
    rw [← turns_pair c b b.plan.outputs b.plan.dependencies w]
    exact List.mem_map_of_mem ht
  unfold Turn.left
  split
  · exact .untouched rfl
  rw [hdirectory]
  split
  · rename_i command hcommand
    have honly := tidy t.pair hlisted command t.answer (t.disk b) hcommand unlinked
    obtain ⟨changed, hsame⟩ := honly.sameBut
    have hleaves : t.world.outside.leaves ⟨command, c.toolchain.timeout⟩ t.answer (t.disk b) =
        w.outside.touch ⟨command, c.toolchain.timeout⟩ t.answer (t.disk b) := by
      unfold Session.leaves
      rw [htouch, ← hsame.here]
    rwa [hleaves]
  · exact .untouched rfl

theorem worldAfter_keeps : ∀ (pairs dependencies : List (Text × Text)) (w : World Session),
    (∀ t ∈ turns c b pairs dependencies w, t.Smooth c b) → w.disk.Unlinked →
      (worldAfter c b pairs dependencies w).disk.Unlinked ∧
        w.disk.Keeps (worldAfter c b pairs dependencies w).disk
  | [], _, _, _, unlinked => ⟨unlinked, rfl, rfl, fun _ h => h⟩
  | pair :: pairs, dependencies, w, smooth, unlinked => by
    rw [turns, List.forall_mem_cons] at smooth
    obtain ⟨hunlinked, hkeeps⟩ := Turn.play_keeps smooth.1 unlinked
    obtain ⟨hunlinked', hkeeps'⟩ := worldAfter_keeps pairs dependencies.tail _ smooth.2 hunlinked
    exact ⟨hunlinked', hkeeps.trans hkeeps'⟩

/-- **Nothing comes to a file in a turn**: neither is it the turn's dependency file, nor the output of its run. -/
structure Turn.Spares (b : Batch) (t : Turn) (d : Disk) (l : File.Location) : Prop where
  other : ∀ pair k, t.Due b pair → d.Leads (dependencyFile pair) k → k ≠ l
  apart : b.outputType ≠ .dependency → ∀ k, d.Leads t.pair.2 k → k ≠ l

/-- **A dependency file stays as it is** as long as nothing comes to it. -/
theorem worldAfter_holds {path : Text} {l : File.Location} {bytes : List UInt8} (ends : EndsIn path dependencyByte) :
    ∀ (pairs dependencies : List (Text × Text)) (w : World Session),
      (∀ t ∈ turns c b pairs dependencies w, t.Smooth c b) → w.disk.Unlinked → w.disk.Holds path l bytes →
        (∀ t ∈ turns c b pairs dependencies w, t.Spares b (worldAfter c b pairs dependencies w).disk l) →
          (worldAfter c b pairs dependencies w).disk.Holds path l bytes
  | [], _, _, _, _, held, _ => held
  | pair :: pairs, dependencies, w, smooth, unlinked, held, spares => by
    rw [turns, List.forall_mem_cons] at smooth spares
    obtain ⟨hunlinked, -⟩ := Turn.play_keeps smooth.1 unlinked
    obtain ⟨-, hkeeps⟩ := worldAfter_keeps pairs dependencies.tail _ smooth.2 hunlinked
    have hheld := Turn.play_holds smooth.1 unlinked held ends
      (fun pair k due hk => spares.1.other pair k due (hkeeps.leads hk))
      (fun htype k hk => spares.1.apart htype k (hkeeps.leads hk))
    exact worldAfter_holds ends pairs dependencies.tail _ smooth.2 hunlinked hheld spares.2

/-- **After a batch a dependency file holds the rule that was written to it last**, unless it is the output of a later
run. -/
theorem worldAfter_written : ∀ (pairs dependencies : List (Text × Text)) (w : World Session),
    (∀ t ∈ turns c b pairs dependencies w, t.Smooth c b) → w.disk.Unlinked →
      ∀ (i : Nat) (t : Turn) (pair : Text × Text), (turns c b pairs dependencies w)[i]? = some t → t.Due b pair →
        (∀ (j : Nat) (t' : Turn), i < j → (turns c b pairs dependencies w)[j]? = some t' →
          (∀ pair', t'.Due b pair' →
            ¬ SameFile (worldAfter c b pairs dependencies w).disk (dependencyFile pair') (dependencyFile pair)) ∧
          (b.outputType ≠ .dependency →
            ¬ SameFile (worldAfter c b pairs dependencies w).disk t'.pair.2 (dependencyFile pair))) →
          ∃ l bytes, Charset.utf8.encode (ruleFor b t.pair.1 pair) = .ok bytes ∧
            (worldAfter c b pairs dependencies w).disk.Holds (dependencyFile pair) l bytes
  | [], _, _, _, _, _, _, _, ht, _, _ => by cases ht
  -- the file is written in the first turn, and in no later one
  | head :: pairs, dependencies, w, smooth, unlinked, 0, t, pair, ht, due, last => by
    rw [turns] at smooth ht last
    rw [List.forall_mem_cons] at smooth
    cases ht
    obtain ⟨-, -, hleft⟩ := Turn.left_onlyAt smooth.1 unlinked
    obtain ⟨hunlinked, -⟩ := Turn.play_keeps smooth.1 unlinked
    obtain ⟨hunlinked', hkeeps⟩ := worldAfter_keeps pairs dependencies.tail _ smooth.2 hunlinked
    rcases Turn.play_disk smooth.1 hleft with ⟨pair', d₁, l, bytes, due', hencode, -, hwrote⟩ | ⟨hnone, -⟩
    · obtain rfl := due.unique due'
      have hthere := Disk.walk_of_leads hunlinked'.free (hkeeps.leads hwrote.holds.leads) true
      have hspares : ∀ t' ∈ turns c b pairs dependencies.tail _, t'.Spares b _ l := fun t' ht' => by
        obtain ⟨j, hj⟩ := List.mem_iff_getElem?.1 ht'
        obtain ⟨other, apart⟩ := last (j + 1) t' (Nat.succ_pos j) hj
        constructor
        · rintro pair' k due' hk rfl
          exact other pair' due' ⟨_, Disk.walk_of_leads hunlinked'.free hk true, hthere⟩
        · rintro htype k hk rfl
          exact apart htype ⟨_, Disk.walk_of_leads hunlinked'.free hk true, hthere⟩
      exact ⟨l, bytes, hencode, worldAfter_holds (smooth.1.ends pair due.2.2) pairs dependencies.tail _ smooth.2 hunlinked
        hwrote.holds hspares⟩
    · exact absurd due (hnone pair)
  -- it is written in a later turn, whatever the first one does
  | head :: pairs, dependencies, w, smooth, unlinked, i + 1, t, pair, ht, due, last => by
    rw [turns] at smooth ht last
    rw [List.forall_mem_cons] at smooth
    obtain ⟨hunlinked, -⟩ := Turn.play_keeps smooth.1 unlinked
    exact worldAfter_written pairs dependencies.tail _ smooth.2 hunlinked i t pair ht due
      fun j t' hij ht' => last (j + 1) t' (Nat.succ_lt_succ hij) ht'

end ScriptDriver.Backend
