import ScriptDriver.Output.Path
/-!
# Plan — the output paths of a batch

Every input gets one primary output.  When dependency files are wanted it also gets a pair of a bitcode path and a
dependency path; the half that the run produces is the primary output, the other half lies in the dependency directory.
-/
namespace ScriptDriver.Output

/-- The bitcode path and the dependency path for an input whose primary output is `primary`. -/
def dependencyPair (s : Settings) (input primary : Text) : Text × Text :=
  (if s.outputType = .bitcode then primary else path s.dependencyDir input .bitcode,
    if s.outputType = .dependency then primary else path s.dependencyDir input .dependency)

/-- Inputs with their outputs, and bitcode paths with their dependency paths, in the order of the inputs. -/
structure Plan where
  outputs : List (Text × Text)
  dependencies : List (Text × Text)
  deriving DecidableEq

def primary (s : Settings) (input : Text) : Text := path s.outputDir input s.outputType

def plan (s : Settings) (inputs : List Text) : Plan where
  outputs := inputs.map fun input => (input, primary s input)
  dependencies :=
    if s.withDependencies then inputs.map fun input => dependencyPair s input (primary s input) else []

end ScriptDriver.Output
