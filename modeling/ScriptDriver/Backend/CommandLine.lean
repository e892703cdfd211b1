import ScriptDriver.Text.Decimal
import ScriptDriver.Toolchain.Command
/-!
# CommandLine — what the backend is told

The command that compiles one script: the command of the toolchain, the target, the language, the level, the include
paths, what to produce, and last the output and the input.
-/
namespace ScriptDriver.Backend

open File (Path)

/-- Why there is no command. -/
inductive CommandFault where
  | level (e : Decimal.TooLong)
  | noRun (type : OutputType)
  deriving DecidableEq

def CommandFault.message : CommandFault → Text
  | .level e => e.message
  | .noRun type => "No backend invocation for output type '" ++ type.word ++ "'"

/-- The flags for an output type; a dependency file needs no run. -/
def flags? : OutputType → Option (List Text)
  | .bitcode => some ["-c", "-emit-llvm"]
  | .assembly => some ["-S"]
  | .llvmAssembly => some ["-S", "-emit-llvm"]
  | .object => some ["-c"]
  | .nothing => some ["-fsyntax-only"]
  | .dependency => none

def flags (type : OutputType) : Except CommandFault (List Text) :=
  match flags? type with
  | some flags => .ok flags
  | none => .error (.noRun type)

def targetArgs (t : Target) : List Text :=
  ([("-target" : Text), t.triple] ++ if t.cpu = [] then [] else ["-mcpu=" ++ t.cpu]) ++
    t.features.flatMap fun feature => [("-Xclang" : Text), "-target-feature", "-Xclang", feature]

def languageArgs : List Text := ["-x", "c", "-std=c99"]

def includeArgs (paths : List Text) : List Text := paths.map fun path => "-I" ++ path

def fileArgs (input output : Text) : List Text := ["-o", output, input]

/-- What is said about one script, apart from the toolchain and the target. -/
structure Script where
  input : Text
  output : Text
  includePaths : List Text
  outputType : OutputType
  allowRsNames : Bool
  targetApi : Int

/-- The command for a script, after `opening`. -/
def command (opening : List Text) (s : Script) : Except CommandFault (List Text) :=
  match Decimal.write s.targetApi with
  | .error e => .error (.level e)
  | .ok level =>
    match flags s.outputType with
    | .error e => .error e
    | .ok flags =>
      .ok (opening ++ languageArgs ++ [("-DRS_VERSION=" : Text) ++ level] ++
        (if s.allowRsNames then [("-DRS_ALLOW_RS_PREFIX=1" : Text)] else []) ++
        includeArgs s.includePaths ++ flags ++ fileArgs s.input s.output)

end ScriptDriver.Backend
