import ScriptDriver.Console.Screen
import ScriptDriver.File.Disk
import ScriptDriver.Output.Plan
/-!
# Compiler — what compiles a batch

The driver knows a compiler only by its kind: how one is made, set up for a target, given a batch and put away.  Each of
these acts on the world and may fail; the world is given back also then.
-/
namespace ScriptDriver

/-- The scripts of a run with everything that matters for compiling them. -/
structure Batch where
  plan : Output.Plan
  includePaths : List Text
  dependencyTargets : List Text
  outputType : OutputType
  bitcodeStorage : BitcodeStorage
  allowRsNames : Bool
  withDependencies : Bool
  targetApi : Int
  reflectionBase : Text
  reflectionPackage : Text
  deriving DecidableEq

/-- The batch for inputs compiled as the settings say. -/
def Batch.of (s : Settings) (inputs : List Text) : Batch where
  plan := Output.plan s inputs
  includePaths := s.includePaths
  dependencyTargets := s.dependencyTargets
  outputType := s.outputType
  bitcodeStorage := s.bitcodeStorage
  allowRsNames := s.allowRsNames
  withDependencies := s.withDependencies
  targetApi := s.targetApi
  reflectionBase := s.reflectionBase
  reflectionPackage := s.reflectionPackage

/-- What a run acts on: the disk, the two consoles, and whatever else a compiler uses. -/
structure World (X : Type) where
  disk : File.Disk
  out : Console.Screen
  err : Console.Screen
  outside : X

/-- A kind of compiler. -/
structure CompilerKind (X C E : Type) where
  make : World X → Except E C × World X
  setUp : C → Target → World X → Except E C × World X
  compile : C → Batch → World X → Except E Bool × World X
  putAway : C → World X → Option E × World X

end ScriptDriver
