import ScriptDriver.Backend.CommandLine
import ScriptDriver.Backend.Process
import ScriptDriver.Backend.Rule
import ScriptDriver.Compiler.Basic
import ScriptDriver.File.Atomic
import ScriptDriver.File.Real
import ScriptDriver.Text.Blank
/-!
# Compile — compiling a batch with another program

The backend is run once per script, and a dependency rule is written for each script it succeeded for.  A run that fails
and a rule that the file system refuses are reported, and the rest of the batch goes on; other faults end the batch.
-/
namespace ScriptDriver.Backend

open File (Path Disk)
open Console (Screen)

/-- A compiler that runs the command of a toolchain. -/
structure Compiler where
  toolchain : Toolchain
  /-- The arguments that say the target; none before it is set up. -/
  targetArgs : List Text := []

namespace Compiler

def setUp (c : Compiler) (t : Target) : Compiler := { c with targetArgs := Backend.targetArgs t }

def reset (c : Compiler) : Compiler := { c with targetArgs := [] }

/-- The command for a script, relative programs being seen from `here`. -/
def command (c : Compiler) (here : Path) (s : Script) : Except CommandFault (List Text) :=
  Backend.command (c.toolchain.backendCommand here ++ c.targetArgs) s

end Compiler

/-- What ends a batch. -/
inductive Fault where
  | file (e : File.Fault)
  | command (e : CommandFault)
  /-- The limit of a run has too many digits to be reported. -/
  | limit (e : Decimal.TooLong)
  | crashed (reason : Text)
  deriving DecidableEq

def Fault.message : Fault → Text
  | .file e => e.message
  | .command e => e.message
  | .limit e => e.message
  | .crashed reason => reason

/-! ## Runs -/

/-- What to report of a failed run: error messages, and what the program printed. -/
structure Complaint where
  error : Text
  output : Text := []

/-- The complaint about a run of the program `prog` on an input; there is none if it succeeded. -/
def complaint? (input prog : Text) (timeout : Int) : Outcome → Except Fault (Option Complaint)
  | .exited status output =>
    if status = 0 then .ok none
    else .ok (some ⟨input ++ ": compilation failed (exit " ++ Text.ofInt status ++ ")", (Utf8.lossy output).strip⟩)
  | .timedOut =>
    match Decimal.write timeout with
    | .ok limit => .ok (some { error := input ++ ": compile timed out after " ++ limit ++ "s" })
    | .error e => .error (.limit e)
  | .notFound =>
    let e : File.Refused := { refusal := .notFound, path := prog }
    .ok (some { error := "compiler not found: " ++ e.message })
  | .denied =>
    let e : File.Refused := { refusal := .denied, path := prog }
    .ok (some { error := "failed to run compiler: " ++ e.message })
  | .failed reason => .ok (some { error := "failed to run compiler: " ++ reason })
  | .crashed reason => .error (.crashed reason)

def Complaint.print (c : Complaint) (s : Screen) : Screen :=
  let s := s.printError c.error
  if c.output = [] then s else s.printLiteral c.output

/-- Runs a command for an input and reports a failure. -/
def runFor (input : Text) (r : Run) (w : World Session) : Except Fault Bool × World Session :=
  match w.outside.run r with
  | (outcome, session) =>
    let w := { w with disk := w.outside.leaves r outcome w.disk, outside := session }
    match complaint? input (r.command.headD []) r.timeout outcome with
    | .error e => (.error e, w)
    | .ok none => (.ok true, w)
    | .ok (some c) => (.ok false, { w with err := c.print w.err })

/-! ## Scripts -/

/-- Runs the backend for a script whose output is to lie in an existing directory. -/
def runScript (c : Compiler) (s : Script) (w : World Session) : Except Fault Bool × World Session :=
  match (if s.outputType = .nothing then (w.disk, none) else w.disk.ensureParent (Path.ofText s.output)) with
  | (disk, fault) =>
    let w := { w with disk }
    match fault with
    | some e => (.error (.file e), w)
    | none =>
      match c.command w.disk.workingDirectory s with
      | .error e => (.error (.command e), w)
      | .ok command => runFor s.input ⟨command, c.toolchain.timeout⟩ w

def writeRule (path text : Text) (d : Disk) : Disk × Option File.Fault :=
  match d.ensureParent (Path.ofText path) with
  | (d, some e) => (d, some e)
  | (d, none) => d.writeAtomically (Path.ofText path) .utf8 text

/-- Writes the dependency file of a script and reports it if the file system refuses. -/
def noteDependency (input : Text) (targets : List Text) (pair : Text × Text) (w : World Session) :
    Except Fault Bool × World Session :=
  match writeRule pair.2 (rule (pair.1 :: targets) [input]) w.disk with
  | (disk, fault) =>
    let w := { w with disk }
    match fault with
    | none => (.ok true, w)
    | some (.refused e) =>
      (.ok false, { w with
        err := w.err.printError ("cannot write dependency file '" ++ pair.2 ++ "': " ++ e.message) })
    | some e => (.error (.file e), w)

def scriptOf (b : Batch) (pair : Text × Text) : Script where
  input := pair.1
  output := pair.2
  includePaths := b.includePaths
  outputType := b.outputType
  allowRsNames := b.allowRsNames
  targetApi := b.targetApi

/-- Compiles one script; `dependency` is the pair of a bitcode path and a dependency path that goes with it. -/
def compileScript (c : Compiler) (b : Batch) (pair : Text × Text) (dependency : Option (Text × Text))
    (w : World Session) : Except Fault Bool × World Session :=
  match (if b.outputType = .dependency then (.ok true, w) else runScript c (scriptOf b pair) w) with
  | (.error e, w) => (.error e, w)
  | (.ok false, w) => (.ok false, w)
  | (.ok true, w) =>
    match dependency with
    | some dependency =>
      if b.withDependencies then noteDependency pair.1 b.dependencyTargets dependency w else (.ok true, w)
    | none => (.ok true, w)

/-- Compiles scripts one after the other, each with the dependency pair in the same place. -/
def compileAll (c : Compiler) (b : Batch) : List (Text × Text) → List (Text × Text) → World Session →
    Except Fault Bool × World Session
  | [], _, w => (.ok true, w)
  | pair :: pairs, dependencies, w =>
    match compileScript c b pair dependencies.head? w with
    | (.error e, w) => (.error e, w)
    | (.ok good, w) =>
      match compileAll c b pairs dependencies.tail w with
      | (.error e, w) => (.error e, w)
      | (.ok rest, w) => (.ok (good && rest), w)

def compile (c : Compiler) (b : Batch) (w : World Session) : Except Fault Bool × World Session :=
  compileAll c b b.plan.outputs b.plan.dependencies w

def kind (t : Toolchain) : CompilerKind Session Compiler Fault where
  make := fun w => (.ok { toolchain := t }, w)
  setUp := fun c target w => (.ok (c.setUp target), w)
  compile := compile
  putAway := fun _ w => (none, w)

end ScriptDriver.Backend
