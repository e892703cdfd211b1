import ScriptDriver.Proofs.File.Parts
import ScriptDriver.Proofs.Text.Decoding
import ScriptDriver.Proofs.Toolchain.Validation
/-!
# Loading — the configuration file behind a toolchain

A toolchain that was loaded from a file was loaded from the file that is found, which is the one that is named or the
nearest one (`found_of_load`).  The parts of its path are names, whichever of the two it is (`discover_plain`).
-/
namespace ScriptDriver.Toolchain

open File (Path Disk Location)
open Toml (Table Value)

/-! ## The file that is found -/

theorem fileIn_plain (dir : Location) : (fileIn dir).Plain := (Path.ofText_plain _).join (Path.ofText_plain _)

theorem nearest_plain {d : Disk} : ∀ {dirs : List Location} {path : Path}, nearest d dirs = .ok (some path) → path.Plain
  | [], _, h => by cases h
  | dir :: dirs, path, h => by
    unfold nearest at h
    cases hfile : d.isFile (fileIn dir).toText with
    | error e =>
      rw [hfile] at h
      cases h
    | ok found =>
      rw [hfile] at h
      cases found with
      | false => exact nearest_plain h
      | true =>
        obtain rfl : fileIn dir = path := Option.some.inj (Except.ok.inj h)
        exact fileIn_plain dir

/-- **The parts of the path of a configuration file are names**, whether it is named or found. -/
theorem discover_plain {d : Disk} {named : Option Text} {start : Option Path} {path : Path}
    (h : discover d named start = .ok (some path)) : path.Plain := by
  unfold discover at h
  simp only at h
  split at h
  · obtain rfl : Path.ofText (named.getD []) = path := Option.some.inj (Except.ok.inj h)
    exact Path.ofText_plain _
  · cases hreal : d.resolve (start.getD d.workingDirectory) with
    | error e =>
      rw [hreal] at h
      cases h
    | ok l =>
      rw [hreal] at h
      exact nearest_plain h

/-- What an item-by-item check comes to if it comes to a toolchain. -/
theorem ofDocument_path {path : Path} {document : Table} {t : Toolchain} (h : ofDocument path document = .ok t) :
    t.path = some path := by
  cases htarget : section? document "target" with
  | none => simp [ofDocument, htarget] at h
  | some target =>
    cases hcompiler : section? document "compiler" with
    | none => simp [ofDocument, htarget, hcompiler] at h
    | some compiler =>
      rw [ofDocument_eq path htarget hcompiler] at h
      cases hhead : (offences target compiler).head? with
      | some o =>
        rw [hhead] at h
        cases h
      | none =>
        rw [hhead] at h
        rw [← Except.ok.inj h]
        rfl

theorem load_of_found {d : Disk} {named : Option Text} {start : Option Path} {path : Path}
    (h : discover d named start = .ok (some path)) : load d named start = ofFile d path := by
  rw [load, h]

/-- A toolchain that is loaded from a file that can be read is what its document comes to. -/
theorem load_of_parsed {d : Disk} {named : Option Text} {start : Option Path} {path : Path} {l : Location}
    {bytes : List UInt8} {document : Table} (found : discover d named start = .ok (some path))
    (read : d.read path.toText = .ok (l, bytes)) (parsed : documentOf path bytes = .ok document) :
    load d named start = ofDocument path document := by
  rw [load_of_found found]
  simp only [ofFile, read, parsed]

theorem documentOf_encoded (path : Path) {chars : List Char} {document : Table} (h : Toml.read chars = .ok document) :
    documentOf path (Utf8.encoded chars) = .ok document := by
  simp only [documentOf, Utf8.strict_ok_iff.2 rfl, h]

/-- **A toolchain that was loaded from a file** was loaded from the one that was found. -/
theorem found_of_load {d : Disk} {named : Option Text} {start : Option Path} {t : Toolchain} {path : Path}
    (h : load d named start = .ok t) (hpath : t.path = some path) : discover d named start = .ok (some path) := by
  cases hfound : discover d named start with
  | error e =>
    rw [load, hfound] at h
    cases h
  | ok found =>
    cases found with
    | none =>
      rw [load, hfound] at h
      rw [← Except.ok.inj h] at hpath
      cases hpath
    | some file =>
      rw [load_of_found hfound] at h
      have hfile : t.path = some file := by
        unfold ofFile at h
        rcases hread : d.read file.toText with e | ⟨l, bytes⟩
        · rw [hread] at h
          cases e <;> cases h
        · rw [hread] at h
          dsimp only at h
          cases hdocument : documentOf file bytes with
          | error e =>
            rw [hdocument] at h
            cases h
          | ok document =>
            rw [hdocument] at h
            exact ofDocument_path h
      rw [Option.some.inj (hfile.symm.trans hpath)]

/-! ## A project -/

/-- A project in a directory below the root, with a configuration file. -/
def projectOf (bytes : List UInt8) : Disk :=
  ⟨[([("proj" : Text).toBytes], .directory), ([("proj" : Text).toBytes, fileName.toBytes], .file bytes)], []⟩

def projectFile : Text := "/proj/rscc.toml"

theorem discover_projectOf (bytes : List UInt8) :
    discover (projectOf bytes) (some projectFile) none = .ok (some (Path.ofText projectFile)) := rfl

theorem read_projectOf (bytes : List UInt8) : (projectOf bytes).read (Path.ofText projectFile).toText =
    .ok ([("proj" : Text).toBytes, fileName.toBytes], bytes) := rfl

end ScriptDriver.Toolchain
