import ScriptDriver.File.Path
import ScriptDriver.Settings.Basic
/-!
# Toolchain — the compiler behind the driver

The settings that a project keeps in its configuration file: the target, and the command that compiles one script.
-/
namespace ScriptDriver

open File (Path)

/-- How scripts are compiled in a project. -/
structure Toolchain where
  path : Option Path := none
  target : Target := {}
  targetApi : Int := usualApi
  command : Text := "clang"
  /-- The seconds that one run of the command may take. -/
  timeout : Int := 120
  deriving DecidableEq, Inhabited

namespace Toolchain

/-- The directory of the configuration file, or the working directory `here` if there is no such file. -/
def root (t : Toolchain) (here : Path) : Path :=
  match t.path with
  | some path => path.parent
  | none => here

/-- The settings of a run when the command line says nothing. -/
def settings (t : Toolchain) : Settings := { target := t.target, targetApi := t.targetApi }

end Toolchain
end ScriptDriver
