import ScriptDriver.CommandLine.Help
import ScriptDriver.Compiler.Lifecycle
import ScriptDriver.Console.Banner
import ScriptDriver.Diagnostic.Engine
import ScriptDriver.ResponseFile.Expansion
import ScriptDriver.Settings.Resolve
import ScriptDriver.Toolchain.Load
/-!
# Driver — one run from the command line to the exit status

The command line is expanded and resolved, problems are reported, and then exactly one thing is done: nothing if there
were errors, the help screen, the version banner, a report that there are no inputs, or the compilation of the batch.
The toolchain is loaded when it is first needed and kept for later runs.
-/
namespace ScriptDriver

open CommandLine (standard)

/-- Why a run was broken off. -/
inductive RunFault (E : Type) where
  | expansion (e : File.Fault)
  | report (e : Diagnostic.MessageFault)
  | toolchain (e : Toolchain.Fault)
  | resolution (e : ResolveFault)
  | compiler (e : E)

/-- What is reported of a fault; `ofCompiler` says it of a compiler's. -/
def RunFault.message {E : Type} (ofCompiler : E → Text) : RunFault E → Text
  | .expansion e => e.message
  | .report e => e.message
  | .toolchain e => e.message
  | .resolution e => e.message
  | .compiler e => ofCompiler e

/-- A driver between two runs. -/
structure Driver where
  /-- The toolchain, once it is known. -/
  toolchain : Option Toolchain := none
  configFile : Option Text := none
  /-- Whether problems are printed; otherwise they are only kept. -/
  prints : Bool := true
  /-- The version of the platform that the program runs on. -/
  platform : Text := usualPlatform

/-- What came of a run: its exit status, and what was reported if it came that far, with the name that the program goes
by. -/
structure Run (X E : Type) where
  result : Except (RunFault E) Nat
  reported : Option (Text × Diagnostic.Engine)
  driver : Driver
  world : World X

/-- What a command line asks for when it has been resolved. -/
inductive Request where
  | nothing
  | help
  | version
  | inputs
  | compile

/-- Errors come before everything else, the help screen before the version banner, and both do without inputs. -/
def Request.of (failed : Bool) (s : Settings) (inputs : List Text) : Request :=
  if failed then .nothing
  else if s.showHelp then .help
  else if s.showVersion then .version
  else if inputs = [] then .inputs
  else .compile

/-- The name a program goes by: that of its file without the extension. -/
def programName (args : List Text) : Text :=
  match args with
  | [] => "rscc"
  | path :: _ => (File.Path.ofText path).stem

def skippedWarning (name : Text) : Diagnostic := .of .responseFileCycle [.text name]

/-- The world after an engine has printed on its console. -/
def World.printedBy {X : Type} (w : World X) (e : Diagnostic.Engine) : World X :=
  match e.printer with
  | some p => { w with err := p.screen }
  | none => w

namespace Driver

variable {X C E : Type}

def engine (d : Driver) (prog : Text) (w : World X) : Diagnostic.Engine :=
  if d.prints then .printing prog w.err else .silent

/-- The toolchain of a driver, loaded if it is not known. -/
def configured (d : Driver) (disk : File.Disk) : Except Toolchain.Fault Toolchain :=
  match d.toolchain with
  | some t => .ok t
  | none => Toolchain.load disk d.configFile none

/-- A run being carried out: the driver, the name of the program, and the engine. -/
structure Stage where
  driver : Driver
  prog : Text
  engine : Diagnostic.Engine

def Stage.finish (s : Stage) (result : Except (RunFault E) Nat) (w : World X) : Run X E :=
  ⟨result, some (s.prog, s.engine), s.driver, w⟩

def exitStatus (good : Bool) : Nat := if good then 0 else 1

/-- Does what a command line asks for. -/
def serve (kind : CompilerKind X C E) (s : Stage) (settings : Settings) (inputs : List Text) (w : World X) : Run X E :=
  match Request.of s.engine.failed settings inputs with
  | .nothing => s.finish (.ok 1) w
  | .help => s.finish (.ok 0) { w with out := standard.printHelp w.out s.prog title }
  | .version => s.finish (.ok 0) { w with out := printBanner w.out s.driver.platform }
  | .inputs =>
    match s.engine.add (.of .noInputFiles []) with
    | (engine, none) => { s with engine }.finish (.ok 1) (w.printedBy engine)
    | (engine, some e) => { s with engine }.finish (.error (.report e)) (w.printedBy engine)
  | .compile =>
    match compileOnce kind settings.target (.of settings inputs) w with
    | (.ok good, w) => s.finish (.ok (exitStatus good)) w
    | (.error e, w) => s.finish (.error (.compiler e)) w

/-- Resolves a command line and does what it asks for. -/
def resolveAndServe (kind : CompilerKind X C E) (s : Stage) (defaults : Settings) (args : List Text) (w : World X) :
    Run X E :=
  let r := resolve defaults args
  match s.engine.addAll r.reports with
  | (engine, some e) => { s with engine }.finish (.error (.report e)) (w.printedBy engine)
  | (engine, none) =>
    match r.inputs with
    | .error e => { s with engine }.finish (.error (.resolution e)) (w.printedBy engine)
    | .ok inputs => serve kind { s with engine } r.settings inputs (w.printedBy engine)

/-- Carries out a run after the command line has been expanded. -/
def runExpanded (kind : Toolchain → CompilerKind X C E) (d : Driver) (args skipped : List Text) (w : World X) :
    Run X E :=
  let prog := programName args
  match (d.engine prog w).addAll (skipped.map skippedWarning) with
  | (engine, some e) => Stage.finish ⟨d, prog, engine⟩ (.error (.report e)) (w.printedBy engine)
  | (engine, none) =>
    match d.configured w.disk with
    | .error e => Stage.finish ⟨d, prog, engine⟩ (.error (.toolchain e)) (w.printedBy engine)
    | .ok t =>
      resolveAndServe (kind t) ⟨{ d with toolchain := some t }, prog, engine⟩ t.settings args (w.printedBy engine)

/-- Carries out a run; `argv` begins with the program, and `kind` is the kind of compiler for a toolchain. -/
def run (kind : Toolchain → CompilerKind X C E) (d : Driver) (argv : List Text) (w : World X) : Run X E :=
  match ResponseFile.Expander.expand {} (ResponseFile.ofDisk w.disk) argv with
  | (.error e, _) => ⟨.error (.expansion e), none, d, w⟩
  | (.ok args, x) => runExpanded kind d args x.skipped w

end Driver
end ScriptDriver
