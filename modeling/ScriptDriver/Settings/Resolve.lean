import ScriptDriver.CommandLine.Matched
import ScriptDriver.CommandLine.Standard
import ScriptDriver.Diagnostic.Basic
import ScriptDriver.Settings.Basic
/-!
# Resolve — the settings that a command line asks for

The command line is read against the standard table.  Every problem is reported, none hides another, and the settings
are filled in whatever was reported.  Of an option with one value, and of options that exclude each other, the last one
counts.  The one thing that cannot be resolved is a level with too many digits; all other settings have been filled in
by then.
-/
namespace ScriptDriver

open CommandLine

inductive ResolveFault where
  | table (e : TableFault)
  | level (e : Decimal.TooLong)
  deriving DecidableEq

def ResolveFault.message : ResolveFault → Text
  | .table e => e.message
  | .level e => e.message

/-- What came of a command line: the settings as far as they are filled in, the problems in the order in which they are
reported, and the inputs. -/
structure Resolution where
  settings : Settings
  reports : List Diagnostic
  inputs : Except ResolveFault (List Text)

/-- The output types that options ask for. -/
def OutputType.options : List (OptionId × OutputType) :=
  [(.emitAssembly, .assembly), (.emitLlvm, .llvmAssembly), (.emitBitcode, .bitcode), (.emitNothing, .nothing)]

def OutputType.ofOption? (id : OptionId) : Option OutputType := (options.find? (·.1 = id)).map (·.2)

/-- How an output type that no option asked for is named in a report. -/
def OutputType.spelling (type : OutputType) : Text :=
  match options.find? (·.2 = type) with
  | some (id, _) => standard.nameOf id
  | none => type.word

def OutputType.allowsDependencies (type : OutputType) : Bool := type = .bitcode || type = .dependency

namespace Settings

/-- The settings after a dependency mode. -/
def withMode (s : Settings) : Option Arg → Settings
  | none => s
  | some a => { s with
      withDependencies := true
      outputType := if a.id = .dependencyOnly then .dependency else .bitcode }

def withType (s : Settings) : Option Arg → Settings
  | none => s
  | some a => { s with outputType := (OutputType.ofOption? a.id).getD s.outputType }

/-- The settings after everything but the level has been read from the command line. -/
def filled (defaults : Settings) (m : Matched) : Settings :=
  -- an output type goes before the one that the dependency mode brings
  let s := (defaults.withMode (m.last? [.dependencyGroup])).withType (m.last? [.outputGroup])
  let outputDir := m.lastValue .outputDir s.outputDir
  { s with
    includePaths := m.allValues .includeDir
    outputDir
    allowRsNames := s.allowRsNames || m.has [.allowRsNames]
    reflectionBase := m.lastValue .reflectionBase s.reflectionBase
    reflectionPackage := m.lastValue .reflectionPackage s.reflectionPackage
    bitcodeStorage := (BitcodeStorage.ofWord? (m.lastValue .bitcodeStorage [])).getD s.bitcodeStorage
    dependencyDir := m.lastValue .dependencyDir outputDir
    dependencyTargets := m.allValues .dependencyTarget
    showHelp := m.has [.help]
    showVersion := m.has [.version] }

end Settings

namespace CommandLine.Matched

/-- An option at the end that is short of values. -/
def missingReports (m : Matched) : List Diagnostic :=
  match m.shortage with
  | none => []
  | some s => [.of .missingArgument [.text (m.tokens[s.index]?.getD []), .number s.missing]]

/-- The tokens that look like options and are none. -/
def unknownReports (m : Matched) : List Diagnostic :=
  (m.filtered [.unknown]).map fun a => .of .unknownArgument [.text a.asText]

/-- An output type that dependency files cannot be written along with. -/
def conflictReports (m : Matched) (s : Settings) : List Diagnostic :=
  if s.withDependencies && !s.outputType.allowsDependencies then
    let mode := match m.last? [.dependencyGroup] with
      | some a => a.asText
      | none => standard.nameOf .dependencyToo
    let type := match m.last? [.outputGroup] with
      | some a => a.asText
      | none => s.outputType.spelling
    [.of .notAllowedWith [.text mode, .text type]]
  else []

def storageReports (m : Matched) : List Diagnostic :=
  let word := m.lastValue .bitcodeStorage []
  if word = [] || (BitcodeStorage.ofWord? word).isSome then []
  else [.of .invalidValue [.text (standard.nameOf .bitcodeStorage), .text word]]

def levelReports (m : Matched) : List Diagnostic :=
  match m.lastInteger .targetApi with
  | .malformed a => [.of .invalidInteger [.text a.asText, .text a.value]]
  | _ => []

end CommandLine.Matched

def Resolution.ofMatched (defaults : Settings) (m : Matched) : Resolution :=
  let s := defaults.filled m
  let reports :=
    m.missingReports ++ m.unknownReports ++ m.conflictReports s ++ m.storageReports ++ m.levelReports
  let inputs := (m.filtered [.input]).map (·.value)
  match m.lastInteger .targetApi with
  | .tooLong e => ⟨s, reports, .error (.level e)⟩
  | .integer n => ⟨{ s with targetApi := n }, reports, .ok inputs⟩
  | .absent | .malformed _ => ⟨s, reports, .ok inputs⟩

/-- Resolves a command line, the name of the program first. -/
def resolve (defaults : Settings) (argv : List Text) : Resolution :=
  match argv with
  | [] | [_] => ⟨defaults, [], .ok []⟩
  | _ :: tokens =>
    match standard.read tokens with
    | .error e => ⟨defaults, [], .error (.table e)⟩
    | .ok m => .ofMatched defaults m

end ScriptDriver
