import ScriptDriver.Program
import ScriptDriver.Proofs.Driver.Course
import ScriptDriver.Proofs.File.Refusal
import ScriptDriver.Proofs.Toml.Reading
import ScriptDriver.Proofs.Toolchain.Loading
/-!
# Unusable — configuration files that nothing can be made of

Whatever a configuration file holds, and also if it cannot be read, loading it gives a toolchain or says that the file is
unusable, apart from three kinds of contents: bytes that are no text, an integer too long to be read, and an unfit item
with an integer too long to be shown (`load_handled`).  The last two need a number of thousands of digits
(`judgeable_of_digitsWithin`).  What is unusable is an error message of the program; those three are faults that nothing
deals with, though the status is 1 for them as well.
-/
namespace ScriptDriver

open File (Path Disk Location)

namespace Toolchain

open Toml (Table)

/-! ## Contents that can be judged -/

/-- A toolchain was loaded, or the file is said to be unusable. -/
def Handled (path : Path) (r : Except Fault Toolchain) : Prop :=
  (∃ t, r = .ok t) ∨ ∃ problem, r = .error (.unusable path problem)

/-- What is reported of a document can be written. -/
def Showable (document : Table) : Prop :=
  ∀ target, section? document "target" = some target → ∀ compiler, section? document "compiler" = some compiler →
    ∀ o, (offences target compiler).head? = some o → Toml.Value.Writable o.integers

/-- A text in which no integer is too long to be read, and the first unfit item can be shown. -/
structure Judgeable (chars : List Char) : Prop where
  short : ∀ e, Toml.read chars ≠ .error (.tooLong e)
  showable : ∀ document, Toml.read chars = .ok document → Showable document

/-- **Bytes that can be judged**: they are those of a text, and the text can be judged. -/
def Legible (bytes : List UInt8) : Prop := ∃ chars, bytes = Utf8.encoded chars ∧ Judgeable chars

section
variable (path : Path)

theorem handled_ok (t : Toolchain) : Handled path (.ok t) := .inl ⟨t, rfl⟩

theorem handled_unusable (problem : Problem) : Handled path (.error (.unusable path problem)) := .inr ⟨problem, rfl⟩

theorem handled_error_iff {e : Fault} : Handled path (.error e) ↔ ∃ problem, e = .unusable path problem := by
  simp [Handled]

theorem ofDocument_handled_iff (document : Table) : Handled path (ofDocument path document) ↔ Showable document := by
  cases htarget : section? document "target" with
  | none => simp [ofDocument, Showable, htarget, handled_unusable]
  | some target =>
    cases hcompiler : section? document "compiler" with
    | none => simp [ofDocument, Showable, htarget, hcompiler, handled_unusable]
    | some compiler =>
      rw [ofDocument_eq path htarget hcompiler]
      simp only [Showable, htarget, hcompiler, Option.some.injEq, forall_eq']
      cases (offences target compiler).head? with
      | none => simp [outcome, handled_ok]
      | some o => simp only [outcome, handled_error_iff, fault_unusable_iff, Option.some.injEq, forall_eq']

end

/-! ## What is read -/

def ofBytes (path : Path) (bytes : List UInt8) : Except Fault Toolchain :=
  match documentOf path bytes with
  | .error e => .error e
  | .ok document => ofDocument path document

theorem ofBytes_encoded (path : Path) (chars : List Char) : ofBytes path (Utf8.encoded chars) =
    match Toml.read chars with
    | .error .malformed => .error (.unusable path .malformed)
    | .error (.tooLong e) => .error (.integer e)
    | .ok document => ofDocument path document := by
  simp only [ofBytes, documentOf, Utf8.strict_ok_iff.2 rfl]
  rcases Toml.read chars with (_ | e) | document <;> rfl

theorem encoded_handled_iff (path : Path) (chars : List Char) :
    Handled path (ofBytes path (Utf8.encoded chars)) ↔ Judgeable chars := by
  rw [ofBytes_encoded]
  rcases hread : Toml.read chars with (_ | e) | document
  case error.malformed =>
    refine ⟨fun _ => ?_, fun _ => handled_unusable path _⟩
    constructor <;> rw [hread] <;> nofun
  case error.tooLong =>
    rw [handled_error_iff]
    exact ⟨nofun, fun h => absurd hread (h.short e)⟩
  case ok =>
    simp only [ofDocument_handled_iff]
    refine ⟨fun h => ?_, fun h => h.showable document hread⟩
    constructor <;> rw [hread]
    · nofun
    · exact fun _ hdocument => Except.ok.inj hdocument ▸ h

/-- The most hexadecimal digits that an integer can have if it is always to be shown. -/
def hexLimit : Nat := 3571

theorem hexLimit_le : 16 ^ hexLimit ≤ Nat.pow 10 Decimal.digitLimit := by decide +kernel

theorem writable_of_small {ns : List Int} (h : ∀ n ∈ ns, Toml.Small hexLimit n) : Toml.Value.Writable ns :=
  fun n hn => ⟨_, Decimal.write_of_lt (Nat.lt_of_lt_of_le (h n hn) hexLimit_le)⟩

/-- **A text without long numbers can be judged**, whatever else is in it. -/
theorem judgeable_of_digitsWithin {chars : List Char} (within : Toml.DigitsWithin hexLimit chars) : Judgeable chars := by
  have hread := Toml.read_fair (by decide) (by decide) within
  constructor
  case short =>
    intro e he
    rw [he] at hread
    cases hread
  case showable =>
    intro document hdocument target htarget compiler hcompiler o ho
    rw [hdocument] at hread
    cases hread with
    | ok fine =>
      exact writable_of_small (offences_fine (section?_fine htarget fine) (section?_fine hcompiler fine)
        (List.mem_of_head? ho))

theorem ofBytes_undecodable (path : Path) {bytes : List UInt8} (h : ∀ chars, bytes ≠ Utf8.encoded chars) :
    ∃ e, ofBytes path bytes = .error (.undecodable e) := by
  unfold ofBytes documentOf
  cases hstrict : Utf8.strict bytes with
  | error e => exact ⟨e, rfl⟩
  | ok chars => exact absurd (Utf8.strict_ok_iff.1 hstrict) (h chars)

theorem ofBytes_handled_iff (path : Path) (bytes : List UInt8) : Handled path (ofBytes path bytes) ↔ Legible bytes := by
  by_cases htext : ∃ chars, bytes = Utf8.encoded chars
  · obtain ⟨chars, rfl⟩ := htext
    rw [encoded_handled_iff]
    -- bytes are those of one text at most
    refine ⟨fun h => ⟨chars, rfl, h⟩, fun ⟨other, hother, h⟩ => ?_⟩
    rwa [Utf8.encoded_inj hother]
  · obtain ⟨e, he⟩ := ofBytes_undecodable path (not_exists.1 htext)
    rw [he, handled_error_iff]
    exact ⟨nofun, fun ⟨chars, hchars, _⟩ => absurd ⟨chars, hchars⟩ htext⟩

def ofRead (path : Path) (r : Except File.Fault (Location × List UInt8)) : Except Fault Toolchain :=
  match r with
  | .error (.refused e) => .error (.unusable path (.unreadable e))
  | .error e => .error (.search e)
  | .ok (_, bytes) => ofBytes path bytes

theorem ofFile_eq_ofRead (d : Disk) (path : Path) : ofFile d path = ofRead path (d.read path.toText) := by
  unfold ofFile ofRead
  rcases d.read path.toText with (_ | _) | ⟨l, bytes⟩ <;> rfl

/-- **What comes of reading is dealt with** if it is a refusal, whichever it is, or contents that can be judged. -/
theorem ofRead_handled_iff (path : Path) (r : Except File.Fault (Location × List UInt8)) :
    Handled path (ofRead path r) ↔
      (∀ e, r = .error e → e.isRefusal = true) ∧ ∀ l bytes, r = .ok (l, bytes) → Legible bytes := by
  rcases r with e | ⟨l, bytes⟩
  · refine Iff.trans (b := e.isRefusal = true) ?_ (by simp)
    cases e <;> simp [ofRead, handled_error_iff, File.Fault.isRefusal]
  · simp [ofRead, ofBytes_handled_iff]

theorem read_refused_iff (d : Disk) (path : Text) :
    (∀ e, d.read path = .error e → e.isRefusal = true) ↔ 0 ∉ path.toBytes := by
  constructor
  · intro h hnull
    cases h _ (Disk.read_of_null hnull)
  · rintro hnull e he
    exact (Disk.read_error he).resolve_right fun h => hnull h.2

end Toolchain

/-! ## The program -/

section
open ResponseFile (Expander ofDisk)

/-- The error console after every response file that was left out has been reported on it. -/
def warned (prog : Text) (skipped : List Text) (err : Console.Screen) : Console.Screen :=
  match ((Diagnostic.Engine.printing prog err).addAll (skipped.map skippedWarning)).1.printer with
  | some p => p.screen
  | none => err

/-- **What a program comes to whose toolchain cannot be loaded**, with the error console as it is by then. -/
structure Exit.Unconfigured (exit : Exit) (w : World Backend.Session) (err : Console.Screen) (e : Toolchain.Fault) :
    Prop where
  status : exit.status = 1
  unusable : ∀ path problem, e = .unusable path problem →
    exit.fault = none ∧ exit.world = { w with err := err.printError e.message }
  other : (∀ path problem, e ≠ .unusable path problem) →
    exit.fault = some (.toolchain e) ∧ exit.world = { w with err }

theorem runProgram_unconfigured {named : Option Text} {prog : Text} {args argv : List Text} {w : World Backend.Session}
    {x : Expander} {e : Toolchain.Fault} (expanded : Expander.expand {} (ofDisk w.disk) (commandLine prog args) = (.ok argv, x))
    (unloaded : Toolchain.load w.disk named none = .error e) :
    (runProgram named prog args w).Unconfigured w (warned (programName argv) x.skipped w.err) e := by
  obtain ⟨engine, hadd, -⟩ := ({ configFile := named } : Driver).addAll_skipped (programName argv) x.skipped w
  have hprinted : w.printedBy engine = { w with err := warned (programName argv) x.skipped w.err } := by
    have hengine : ((Diagnostic.Engine.printing (programName argv) w.err).addAll (x.skipped.map skippedWarning)).1 =
      engine := congrArg Prod.fst hadd
    rw [warned, hengine, World.printedBy]
    cases engine.printer <;> rfl
  -- nothing has been done by then but to expand the command line and to print the warnings
  have hrun : ({ configFile := named } : Driver).run Backend.kind (commandLine prog args) w =
      Driver.Stage.finish ⟨{ configFile := named }, programName argv, engine⟩ (.error (.toolchain e))
        { w with err := warned (programName argv) x.skipped w.err } := by
    simp only [Driver.run, expanded, Driver.runExpanded, hadd, Driver.configured, unloaded, hprinted]
  unfold runProgram
  rw [hrun]
  constructor
  case status => cases e <;> rfl
  case unusable =>
    rintro path problem rfl
    exact ⟨rfl, rfl⟩
  case other =>
    intro hother
    cases e with
    | unusable path problem => exact absurd rfl (hother path problem)
    | undecodable | integer | search => exact ⟨rfl, rfl⟩

end

namespace Toolchain
open ResponseFile (Expander ofDisk)

/-- **A configuration file that is found is dealt with**, whatever came of reading it and whatever is in it, exactly if
its contents can be judged, which all texts without long numbers can; a path with a null character is none.  A program
then stops with a message and status 1, if it does not go on with the toolchain. -/
theorem load_handled {d : Disk} {named : Option Text} {start : Option Path} {path : Path}
    (found : discover d named start = .ok (some path)) :
    load d named start = ofRead path (d.read path.toText) ∧
    (∀ r, Handled path (ofRead path r) ↔
      (∀ e, r = .error e → e.isRefusal = true) ∧ ∀ l bytes, r = .ok (l, bytes) → Legible bytes) ∧
    (Handled path (load d named start) ↔
      0 ∉ path.toText.toBytes ∧ ∀ l bytes, d.read path.toText = .ok (l, bytes) → Legible bytes) ∧
    (∀ chars, Toml.DigitsWithin hexLimit chars → Legible (Utf8.encoded chars)) ∧
    ∀ (prog : Text) (args argv : List Text) (w : World Backend.Session) (x : Expander) (e : Fault), w.disk = d →
      Expander.expand {} (ofDisk d) (commandLine prog args) = (.ok argv, x) → load d named none = .error e →
      (runProgram named prog args w).Unconfigured w (warned (programName argv) x.skipped w.err) e := by
  have hload : load d named start = ofRead path (d.read path.toText) :=
    (load_of_found found).trans (ofFile_eq_ofRead d path)
  refine ⟨hload, ofRead_handled_iff path, ?_, fun chars within => ⟨chars, rfl, judgeable_of_digitsWithin within⟩, ?_⟩
  · rw [hload, ofRead_handled_iff, read_refused_iff]
  · rintro prog args argv w x e rfl
    exact runProgram_unconfigured

/-- A project whose configuration file stops before a value. -/
def unfinishedProject : Disk := projectOf ("[target]\ntriple =" : Text).toBytes

theorem load_handled_unfinished :
    discover unfinishedProject none (some (Path.ofText "/proj/lib")) = .ok (some (Path.ofText projectFile)) ∧
    load unfinishedProject none (some (Path.ofText "/proj/lib")) =
      ofRead (Path.ofText projectFile) (unfinishedProject.read (Path.ofText projectFile).toText) ∧
    (∀ r, Handled (Path.ofText projectFile) (ofRead (Path.ofText projectFile) r) ↔
      (∀ e, r = .error e → e.isRefusal = true) ∧ ∀ l bytes, r = .ok (l, bytes) → Legible bytes) ∧
    (Handled (Path.ofText projectFile) (load unfinishedProject none (some (Path.ofText "/proj/lib"))) ↔
      0 ∉ (Path.ofText projectFile).toText.toBytes ∧ ∀ l bytes,
        unfinishedProject.read (Path.ofText projectFile).toText = .ok (l, bytes) → Legible bytes) ∧
    (∀ chars, Toml.DigitsWithin hexLimit chars → Legible (Utf8.encoded chars)) ∧
    ∀ (prog : Text) (args argv : List Text) (w : World Backend.Session) (x : Expander) (e : Fault),
      w.disk = unfinishedProject → Expander.expand {} (ofDisk unfinishedProject) (commandLine prog args) = (.ok argv, x) →
      load unfinishedProject none none = .error e →
      (runProgram none prog args w).Unconfigured w (warned (programName argv) x.skipped w.err) e := by
  have found : discover unfinishedProject none (some (Path.ofText "/proj/lib")) =
      .ok (some (Path.ofText projectFile)) := by rfl
  exact ⟨found, load_handled found⟩

/-- A project whose configuration file begins with a byte that no text begins with. -/
def garbledProject : World Backend.Session := ⟨projectOf [0xFF], .blank 80, .blank 80, { outcomes := [] }⟩

/-- **A garbled configuration file is a fault that nothing deals with**, and there is no message. -/
theorem garbled_escapes : ∃ e : Utf8.Undecodable,
    load garbledProject.disk (some projectFile) none = .error (.undecodable e) ∧
    ¬ Handled (Path.ofText projectFile) (load garbledProject.disk (some projectFile) none) ∧
    (runProgram (some projectFile) [] ["a.rs"] garbledProject).fault = some (.toolchain (.undecodable e)) ∧
    (runProgram (some projectFile) [] ["a.rs"] garbledProject).world.err.shown = [] := by
  obtain ⟨e, he⟩ : ∃ e, load garbledProject.disk (some projectFile) none = .error (.undecodable e) := ⟨_, rfl⟩
  have expanded : Expander.expand {} (ofDisk garbledProject.disk) (commandLine [] ["a.rs"]) =
      (.ok ["rscc", "a.rs"], {}) := by rfl
  obtain ⟨hfault, hworld⟩ := (runProgram_unconfigured expanded he).other nofun
  refine ⟨e, he, ?_, hfault, ?_⟩
  · rw [he, handled_error_iff]
    nofun
  · rw [hworld]
    rfl

end Toolchain
end ScriptDriver
