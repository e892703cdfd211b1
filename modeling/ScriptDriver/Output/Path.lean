import ScriptDriver.Settings.Basic
/-!
# Path — where the output for a script goes

Bitcode is named after the script, spelled so that the name is part of an identifier; a dependency file keeps the
script's name, so that it is found beside the source.
-/
namespace ScriptDriver.Output

/-- What follows the last separator. -/
def baseName (path : Text) : Text := (path.reverse.takeWhile (!·.is '/')).reverse

def dropExtension (name : Text) : Text :=
  if name.any (·.is '.') then ((name.reverse.dropWhile (!·.is '.')).drop 1).reverse else name

def stem (path : Text) : Text := dropExtension (baseName path)

/-- A glyph that may stand in an identifier; all others become an underscore. -/
def identifierGlyph (g : Glyph) : Glyph := if g.isAscii Char.isAlphanum then g else .char '_'

/-- The name of the bitcode for a script. -/
def bitcodeStem (path : Text) : Text := (stem path).map identifierGlyph

def suffix : OutputType → Text
  | .dependency => ".d"
  | .assembly => ".S"
  | .llvmAssembly => ".ll"
  | .object => ".o"
  | .bitcode => ".bc"
  | .nothing => []

/-- A directory as the beginning of a path: with a separator at its end, unless it is empty. -/
def directoryPart (dir : Text) : Text :=
  if dir = [] || (dir.getLast?.any (·.is '/')) then dir else dir ++ [.char '/']

def namePart (path : Text) : OutputType → Text
  | .dependency => stem path
  | _ => bitcodeStem path

/-- The path of the output for a script; no output goes to the null device. -/
def path (dir input : Text) (type : OutputType) : Text :=
  if type = .nothing then "/dev/null" else directoryPart dir ++ namePart input type ++ suffix type

end ScriptDriver.Output
