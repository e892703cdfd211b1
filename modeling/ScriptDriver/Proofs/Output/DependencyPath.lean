import ScriptDriver.Backend.Rule
import ScriptDriver.Output.Plan
import ScriptDriver.Proofs.File.Written
/-!
# DependencyPath — where the dependency files of a plan lie

The dependency files of a plan lie in one directory and are named after their scripts (`dependency_path`).  None of them
looks like a temporary file, and two of them are the same file only if they have the same path, as far as their rules
can be written (`path_eq_of_leads`).
-/
namespace ScriptDriver

/-! ## Texts of characters -/

/-- Texts with nothing but characters in them. -/
def Text.Clean (t : Text) : Prop := ∀ g ∈ t, ∃ c, g = Glyph.char c

theorem Text.clean_ofChars (cs : List Char) : (Text.ofChars cs).Clean := by
  intro g hg
  obtain ⟨c, -, rfl⟩ := List.mem_map.1 hg
  exact ⟨c, rfl⟩

theorem Text.Clean.eq_ofChars : ∀ {t : Text}, t.Clean → ∃ cs, t = Text.ofChars cs
  | [], _ => ⟨[], rfl⟩
  | g :: t, h => by
    obtain ⟨c, rfl⟩ := h g List.mem_cons_self
    obtain ⟨cs, rfl⟩ := Text.Clean.eq_ofChars fun g hg => h g (List.mem_cons_of_mem _ hg)
    exact ⟨c :: cs, rfl⟩

theorem Text.separator_not_mem {t : Text} (h : t.Clean) (hplain : ∀ g ∈ t, File.isSeparator g = false) :
    (0x2F : UInt8) ∉ t.toBytes := by
  intro hmem
  obtain ⟨g, hg, hbyte⟩ := List.mem_flatMap.1 hmem
  obtain ⟨c, rfl⟩ := h g hg
  have hc := Utf8.eq_of_separator_mem hbyte
  have hno := hplain _ hg
  rw [hc] at hno
  cases hno

/-- **A rule has every character of its input.** -/
theorem Backend.clean_of_rule {targets : List Text} {input : Text} (h : (Backend.rule targets [input]).Clean) :
    input.Clean := by
  intro g hg
  refine h g ?_
  have hescaped : g ∈ Backend.escapeSpaces input := by
    refine List.mem_flatMap.2 ⟨g, hg, ?_⟩
    split
    · rename_i hspace
      have hg : g = .char ' ' := by simpa [Glyph.is] using hspace
      rw [hg]
      exact .tail _ (.head _)
    · exact List.mem_singleton_self g
  have hpaths : Backend.rulePaths [input] = Backend.escapeSpaces input := by
    simp [Backend.rulePaths, Text.joinWith, List.intercalate]
  unfold Backend.rule
  rw [hpaths]
  exact List.mem_append_left _ (List.mem_append_right _ hescaped)

/-! ## Names of dependency files -/

namespace Output

theorem baseName_plain (path : Text) : ∀ g ∈ baseName path, File.isSeparator g = false := by
  intro g hg
  have hall := List.all_eq_true.1 (List.all_takeWhile (p := fun g : Glyph => !g.is '/') (l := path.reverse))
  have hno := hall g (List.mem_reverse.1 hg)
  simpa [File.isSeparator] using hno

theorem mem_of_mem_dropExtension {name : Text} {g : Glyph} (h : g ∈ dropExtension name) : g ∈ name := by
  unfold dropExtension at h
  split at h
  · have hrest := List.mem_of_mem_drop (List.mem_reverse.1 h)
    exact List.mem_reverse.1 ((List.dropWhile_suffix _).subset hrest)
  · exact h

theorem mem_of_mem_stem {path : Text} {g : Glyph} (h : g ∈ stem path) : g ∈ path := by
  have hbase := mem_of_mem_dropExtension h
  unfold baseName at hbase
  exact List.mem_reverse.1 ((List.takeWhile_prefix _).subset (List.mem_reverse.1 hbase))

def dependencyName (input : Text) : Text := stem input ++ suffix .dependency

theorem dependencyName_plain (input : Text) : ∀ g ∈ dependencyName input, File.isSeparator g = false := by
  intro g hg
  rcases List.mem_append.1 hg with hg | hg
  · exact baseName_plain input g (mem_of_mem_dropExtension hg)
  · have hending : ∀ g ∈ suffix .dependency, File.isSeparator g = false := by decide
    exact hending g hg

theorem dependencyName_clean {input : Text} (h : input.Clean) : (dependencyName input).Clean := by
  intro g hg
  rcases List.mem_append.1 hg with hg | hg
  · exact h g (mem_of_mem_stem hg)
  · exact Text.clean_ofChars ".d".toList g hg

theorem path_dependency (dir input : Text) :
    path dir input .dependency = directoryPart dir ++ dependencyName input := by
  unfold path dependencyName
  rw [if_neg nofun, List.append_assoc]
  rfl

/-- **The dependency files of a plan lie in one directory**, named after the inputs in their places. -/
theorem dependency_path (s : Settings) (inputs : List Text) : ∃ dir : Text, ∀ (i : Nat) (pair : Text × Text),
    (plan s inputs).dependencies[i]? = some pair →
      ∃ input, inputs[i]? = some input ∧ pair.2 = dir ++ dependencyName input := by
  refine ⟨directoryPart (if s.outputType = .dependency then s.outputDir else s.dependencyDir), fun i pair h => ?_⟩
  have hsome : (if s.withDependencies then inputs.map fun input => dependencyPair s input (primary s input) else [])[i]?
      = some pair := h
  split at hsome
  · rw [List.getElem?_map] at hsome
    obtain ⟨input, hinput, rfl⟩ := Option.map_eq_some_iff.1 hsome
    refine ⟨input, hinput, ?_⟩
    rw [← path_dependency]
    unfold dependencyPair primary
    by_cases htype : s.outputType = .dependency
    · rw [htype]
      rfl
    · rw [if_neg htype, if_neg htype]
  · cases hsome

/-! ## Files of a plan -/

section
variable (dir : Text)

/-- The beginning of the dependency paths in a directory, as they are written. -/
theorem exists_opening : ∃ opening : Text, ∀ input,
    (File.Path.ofText (dir ++ dependencyName input)).toText = opening ++ dependencyName input := by
  obtain ⟨opening, h⟩ := File.Path.toText_append dir
  refine ⟨opening, fun input => (h _ ?_ ?_ (dependencyName_plain input)).1⟩
  · simp [dependencyName, suffix, Text.ofString]
  · intro heq
    have hlast := congrArg List.getLast? heq
    simp [dependencyName, suffix, Text.ofString] at hlast

/-- The byte that dependency files end with. -/
def dependencyByte : UInt8 := 0x64

theorem dependency_endsIn (input : Text) :
    File.EndsIn (File.Path.ofText (dir ++ dependencyName input)).toText dependencyByte := by
  obtain ⟨opening, h⟩ := exists_opening dir
  refine ⟨?_, by decide, by decide⟩
  have hending : Text.toBytes (suffix .dependency) = [0x2E, dependencyByte] := rfl
  rw [h, dependencyName, Text.toBytes_append, Text.toBytes_append, hending]
  simp only [List.getLast?_append, List.getLast?_cons_cons, List.getLast?_singleton, Option.some_or]

/-- **Two dependency files in one directory that are the same file have the same name.** -/
theorem path_eq_of_leads {d : File.Disk} {input input' : Text} {l : File.Location} (clean : input.Clean)
    (clean' : input'.Clean) (h : d.Leads (File.Path.ofText (dir ++ dependencyName input)).toText l)
    (h' : d.Leads (File.Path.ofText (dir ++ dependencyName input')).toText l) :
    dir ++ dependencyName input = dir ++ dependencyName input' := by
  obtain ⟨opening, hopening⟩ := exists_opening dir
  rw [hopening] at h h'
  obtain ⟨names, last, -, happend⟩ := File.namesOf_append opening.toBytes
  have hcut : ∀ {input : Text}, input.Clean →
      File.namesOf (opening ++ dependencyName input).toBytes = names ++ [last ++ (dependencyName input).toBytes] := by
    intro input clean
    rw [Text.toBytes_append]
    exact happend _ (Text.separator_not_mem (dependencyName_clean clean) (dependencyName_plain input))
  have hlast : ∀ {input : Text}, input.Clean → d.Leads (opening ++ dependencyName input) l →
      l.getLast? = some (last ++ (dependencyName input).toBytes) := by
    intro input clean h
    cases h with
    | intro _ _ cut _ _ _ =>
      have heq := (List.append_inj' (cut.symm.trans (hcut clean)) rfl).2
      rw [List.getLast?_concat, List.singleton_inj.1 heq]
  have hsame := (hlast clean h).symm.trans (hlast clean' h')
  have hbytes := List.append_cancel_left (Option.some.inj hsame)
  obtain ⟨cs, hcs⟩ := (dependencyName_clean clean).eq_ofChars
  obtain ⟨cs', hcs'⟩ := (dependencyName_clean clean').eq_ofChars
  rw [hcs, hcs'] at hbytes ⊢
  rw [Text.ofChars_eq_of_toBytes hbytes]

end

/-! ## Other outputs -/

/-- The byte that an output path ends with. -/
def lastByte : OutputType → UInt8
  | .dependency => dependencyByte
  | .assembly => 0x53
  | .llvmAssembly | .nothing => 0x6C
  | .object => 0x6F
  | .bitcode => 0x63

theorem path_endsIn (dir input : Text) (type : OutputType) : File.EndsIn (path dir input type) (lastByte type) := by
  refine ⟨?_, by cases type <;> decide, by cases type <;> decide⟩
  by_cases hnothing : type = .nothing
  · rw [hnothing]
    rfl
  · have hending : (Text.toBytes (suffix type)).getLast? = some (lastByte type) := by
      cases type
      case nothing => exact absurd rfl hnothing
      all_goals rfl
    rw [path, if_neg hnothing, Text.toBytes_append, List.getLast?_append, hending, Option.some_or]

/-- **Only a dependency file ends like one.** -/
theorem lastByte_ne {type : OutputType} (h : type ≠ .dependency) : lastByte type ≠ dependencyByte := by
  cases type
  case dependency => exact absurd rfl h
  all_goals decide

end Output
end ScriptDriver
