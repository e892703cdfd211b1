import ScriptDriver.Text.Basic
/-!
# Settings — what a run is asked to do

The settings of one run, with the values they have when nothing is said.
-/
namespace ScriptDriver

/-- What the compiler makes of a script. -/
inductive OutputType where
  | bitcode
  | assembly
  | llvmAssembly
  | object
  | dependency
  | nothing
  deriving DecidableEq, Inhabited

def OutputType.word : OutputType → Text
  | .bitcode => "bitcode"
  | .assembly => "assembly"
  | .llvmAssembly => "llvm-assembly"
  | .object => "object"
  | .dependency => "dependency"
  | .nothing => "nothing"

/-- Where the bitcode is kept in the finished program. -/
inductive BitcodeStorage where
  | apkResource
  | javaCode
  deriving DecidableEq, Inhabited

def BitcodeStorage.word : BitcodeStorage → Text
  | .apkResource => "ar"
  | .javaCode => "jc"

def BitcodeStorage.ofWord? (t : Text) : Option BitcodeStorage :=
  [BitcodeStorage.apkResource, .javaCode].find? (·.word = t)

structure Target where
  triple : Text := "armv7-none-linux-gnueabi"
  cpu : Text := []
  features : List Text := ["+long64"]
  deriving DecidableEq, Inhabited

/-- The lowest, the highest and the usual level of the programming interface. -/
def lowestApi : Int := 11
def highestApi : Int := 16
def usualApi : Int := highestApi

structure Settings where
  includePaths : List Text := []
  outputDir : Text := []
  outputType : OutputType := .bitcode
  allowRsNames : Bool := false
  target : Target := {}
  reflectionBase : Text := []
  reflectionPackage : Text := []
  bitcodeStorage : BitcodeStorage := .apkResource
  withDependencies : Bool := false
  dependencyDir : Text := []
  dependencyTargets : List Text := []
  showHelp : Bool := false
  showVersion : Bool := false
  targetApi : Int := usualApi
  deriving DecidableEq, Inhabited

end ScriptDriver
