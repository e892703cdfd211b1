import ScriptDriver.Proofs.File.WorkingDirectory
import ScriptDriver.Proofs.Toolchain.Loading
import ScriptDriver.Proofs.Toolchain.Words
/-!
# Program — which program a command names

The program of a command is its first word.  A word that is a relative path with a separator in it is seen from the
directory of the configuration file, as long as it has at least two parts that say something; the others are left as
they are written, also where a separator asks for more (`backendCommand_resolved`).  A program that is seen from a
directory below the root is the same one from everywhere.
-/
namespace ScriptDriver

open File (Path Disk Location isSeparator)

namespace File.Path

/-! ## Absolute paths as they are written -/

theorem anchorOf_eq_here {word : Text} : anchorOf word = .here ↔ word.head? ≠ some (.char '/') := by
  cases word with
  | nil => simp [anchorOf]
  | cons g word =>
    by_cases hg : isSeparator g = true
    · obtain rfl : g = .char '/' := of_decide_eq_true hg
      simp only [anchorOf, List.takeWhile_cons_of_pos hg, List.length_cons, List.head?_cons, ne_eq, not_true_eq_false,
        iff_false]
      split <;> simp_all
    · have hne : g ≠ .char '/' := fun heq => hg (heq ▸ rfl)
      simp [anchorOf, List.takeWhile_cons_of_neg hg, hne]

theorem isAbsolute_ofText {word : Text} : (ofText word).isAbsolute = true ↔ word.head? = some (.char '/') := by
  have hanchor : (ofText word).isAbsolute = true ↔ anchorOf word ≠ .here := decide_eq_true_iff
  rw [hanchor, ne_eq, anchorOf_eq_here, not_not]

theorem head?_toText {path : Path} (h : path.isAbsolute = true) : path.toText.head? = some (.char '/') := by
  have hanchor : path.anchor ≠ .here := of_decide_eq_true h
  unfold toText
  rw [if_neg fun hnone => hanchor hnone.1]
  cases hroot : path.anchor with
  | here => exact absurd hroot hanchor
  | root | doubleRoot => rfl

theorem startsAtRoot_of_head? : ∀ {t : Text}, t.head? = some (.char '/') → startsAtRoot t.toBytes = true
  | _ :: _, rfl => rfl

end File.Path

namespace Toolchain

/-! ## Words that are paths -/

/-- **A word that is a relative path with a separator in it.** -/
structure RelativePath (word : Text) : Prop where
  separated : .char '/' ∈ word
  relative : word.head? ≠ some (.char '/')

theorem parts_of_unseparated {word : Text} (h : .char '/' ∉ word) : (Path.ofText word).parts.length ≤ 1 := by
  have hplain : ∀ g ∈ word, isSeparator g = false := fun g hg =>
    Bool.eq_false_iff.2 fun hsep => h (of_decide_eq_true hsep ▸ hg)
  show (Path.telling (Text.splitOn isSeparator word)).length ≤ 1
  rw [File.splitOn_plain hplain]
  exact Nat.le_trans (List.length_filter_le _ _) (List.length_filter_le _ _)

theorem compound_iff {word : Text} : (!(Path.ofText word).isAbsolute && (Path.ofText word).isCompound) = true ↔
    word.head? ≠ some (.char '/') ∧ 2 ≤ (Path.ofText word).parts.length := by
  rw [Bool.and_eq_true, Bool.not_eq_true', ← Bool.not_eq_true, Path.isAbsolute_ofText]
  refine and_congr_right fun hrelative => ?_
  have hnot : (Path.ofText word).isAbsolute = false := Bool.eq_false_iff.2 (mt Path.isAbsolute_ofText.1 hrelative)
  simp only [Path.isCompound, hnot, Bool.false_eq_true, if_false, Nat.add_zero, decide_eq_true_eq]
  exact Iff.rfl

section
variable (root : Path) {word : Text}

/-- **A relative path of several parts is seen from a directory.** -/
theorem program_joined (relative : word.head? ≠ some (.char '/')) (several : 2 ≤ (Path.ofText word).parts.length) :
    program root word = (root.join (Path.ofText word)).toText := if_pos (compound_iff.2 ⟨relative, several⟩)

theorem program_kept (h : ¬ (word.head? ≠ some (.char '/') ∧ 2 ≤ (Path.ofText word).parts.length)) :
    program root word = word := if_neg (mt compound_iff.1 h)

/-- A path that is written out has as many parts as pieces, so a word with fewer parts than pieces is none. -/
theorem joined_ne {root : Path} (plain : root.Plain) (h : RelativePath word)
    (few : (Path.ofText word).parts.length < 2) : (root.join (Path.ofText word)).toText ≠ word := by
  have hjoined : (root.join (Path.ofText word)).Plain := plain.join (Path.ofText_plain word)
  have hpieces : 2 ≤ (Text.splitOn isSeparator word).length := File.splitOn_several h.separated rfl
  intro heq
  -- a written path begins with a separator, is a dot, or is cut into as many pieces as it has parts
  by_cases habsolute : (root.join (Path.ofText word)).isAbsolute = true
  · exact h.relative (heq ▸ Path.head?_toText habsolute)
  · have hhere : (root.join (Path.ofText word)).anchor = .here := by simpa [Path.isAbsolute] using habsolute
    by_cases hnone : (root.join (Path.ofText word)).parts = []
    · have hdot : (root.join (Path.ofText word)).toText = "." := if_pos ⟨hhere, hnone⟩
      have hseparated := h.separated
      rw [← heq, hdot] at hseparated
      revert hseparated
      decide
    · have hcut := Path.splitOn_toText hjoined hhere hnone
      rw [heq] at hcut
      have hparts : (Path.ofText word).parts = Path.telling (Text.splitOn isSeparator word) := rfl
      rw [hcut, hjoined.told] at hparts
      rw [hparts, ← hcut] at few
      omega

end

/-! ## The command of a toolchain -/

/-- **What becomes of the first word of a command** when the configuration file lies at `path`. -/
structure Resolves (path : Path) (word executable : Text) : Prop where
  kept : ¬ RelativePath word → executable = word
  joined_iff : RelativePath word →
    (executable = (path.parent.join (Path.ofText word)).toText ↔ 2 ≤ (Path.ofText word).parts.length)
  left : RelativePath word → (Path.ofText word).parts.length < 2 → executable = word
  fixed : RelativePath word → 2 ≤ (Path.ofText word).parts.length → path.isAbsolute = true →
    ∀ (d : Disk) (l : Location), (d.seenFrom l).locate executable = d.locate executable

theorem program_resolves {path : Path} (plain : path.Plain) (word : Text) :
    Resolves path word (program path.parent word) := by
  constructor
  case kept =>
    intro h
    refine program_kept _ fun ⟨hrelative, hseveral⟩ => h ⟨?_, hrelative⟩
    refine Classical.byContradiction fun hunseparated => ?_
    have hfew := parts_of_unseparated hunseparated
    omega
  case joined_iff =>
    intro h
    constructor
    · intro hjoined
      refine Nat.not_lt.1 fun hfew => joined_ne plain.parent h hfew ?_
      rw [← hjoined, program_kept _ fun hboth => Nat.not_lt.2 hboth.2 hfew]
    · exact program_joined _ h.relative
  case left => exact fun _ hfew => program_kept _ fun hboth => Nat.not_lt.2 hboth.2 hfew
  case fixed =>
    intro h hseveral habsolute d l
    have hjoined : (path.parent.join (Path.ofText word)).isAbsolute = true := by
      unfold Path.join
      split
      · rename_i hother
        exact hother
      · exact habsolute
    rw [program_joined _ h.relative hseveral]
    exact d.locate_seenFrom l (Path.startsAtRoot_of_head? (Path.head?_toText hjoined))

/-- **The command of a toolchain that was loaded from a file** is its words, with the first one resolved; a command of
nothing but blanks is the usual one.  Nothing depends on the working directory but a program that is left as a relative
path. -/
theorem backendCommand_resolved {d : Disk} {named : Option Text} {start : Option Path} {t : Toolchain} {path : Path}
    (loaded : load d named start = .ok t) (hpath : t.path = some path) :
    ((∀ g ∈ t.command, Splitting.isSpace g = true) → ∀ here, t.backendCommand here = ["clang"]) ∧
    ((∃ g ∈ t.command, Splitting.isSpace g = false) → ∃ word rest executable, words t.command = word :: rest ∧
      (∀ here, t.backendCommand here = executable :: rest) ∧ Resolves path word executable) := by
  have plain := discover_plain (found_of_load loaded hpath)
  have hroot (here : Path) : t.root here = path.parent := by rw [root, hpath]
  constructor
  · intro hblank here
    rw [backendCommand, (words_eq_nil_iff _).2 hblank]
    rfl
  · rintro ⟨g, hg, hword⟩
    cases hwords : words t.command with
    | nil => exact absurd ((words_eq_nil_iff _).1 hwords g hg) (by simp [hword])
    | cons word rest =>
      refine ⟨word, rest, program path.parent word, rfl, fun here => ?_, program_resolves plain word⟩
      rw [backendCommand, hwords]
      simp only [hroot]

/-- A project whose configuration file says a command. -/
def projectWith (command : Text) : Disk := projectOf ("[compiler]\ncommand = \"" ++ command ++ "\"\n" : Text).toBytes

/-- What is loaded from the configuration file of such a project. -/
def projectToolchain (command : Text) : Toolchain := { path := some (Path.ofText projectFile), command }

theorem backendCommand_resolved_tools :
    (load (projectWith "tools/clang -O2") (some projectFile) none = .ok (projectToolchain "tools/clang -O2") ∧
      (projectToolchain "tools/clang -O2").path = some (Path.ofText projectFile)) ∧
    ((∀ g ∈ (projectToolchain "tools/clang -O2").command, Splitting.isSpace g = true) →
      ∀ here, (projectToolchain "tools/clang -O2").backendCommand here = ["clang"]) ∧
    ((∃ g ∈ (projectToolchain "tools/clang -O2").command, Splitting.isSpace g = false) → ∃ word rest executable,
      words (projectToolchain "tools/clang -O2").command = word :: rest ∧
      (∀ here, (projectToolchain "tools/clang -O2").backendCommand here = executable :: rest) ∧
      Resolves (Path.ofText projectFile) word executable) := by
  have loaded : load (projectWith "tools/clang -O2") (some projectFile) none =
      .ok (projectToolchain "tools/clang -O2") := by rfl
  exact ⟨⟨loaded, rfl⟩, backendCommand_resolved loaded rfl⟩

/-- **A program beside the configuration file** that is written with a dot is left to the working directory. -/
theorem dottedProgram_left :
    load (projectWith "./clang") (some projectFile) none = .ok (projectToolchain "./clang") ∧
    words (projectToolchain "./clang").command = ["./clang"] ∧ RelativePath "./clang" ∧
    (∀ here, (projectToolchain "./clang").backendCommand here = ["./clang"]) ∧
    ((Path.ofText projectFile).parent.join (Path.ofText "./clang")).toText = "/proj/clang" := by
  have hword : words (projectToolchain "./clang").command = ["./clang"] := by rfl
  refine ⟨by rfl, hword, ⟨by decide, by decide⟩, fun here => ?_, by rfl⟩
  rw [backendCommand, hword]
  exact congrArg ([·]) (program_kept _ fun hboth => absurd hboth.2 (by decide))

/-- The same program, written with the name of its directory, is seen from the configuration file. -/
example (here : Path) : (projectToolchain "../proj/clang").backendCommand here = ["/proj/../proj/clang"] := by rfl

end Toolchain
end ScriptDriver
