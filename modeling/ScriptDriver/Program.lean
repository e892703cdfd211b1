import ScriptDriver.Backend.Compile
import ScriptDriver.Driver
/-!
# Program — the driver as a program

A program is started with a name and arguments, reads the configuration file that the environment names, and compiles
with the command of the toolchain.  An unusable configuration file is an error message; every other fault ends the
program with status 1 as well, and is given back.
-/
namespace ScriptDriver

/-- The name that a program without one goes by. -/
def usualName : Text := "rscc"

/-- The mark after which all arguments are taken as they are; since they always are, it says nothing. -/
def argumentMark : Text := "--"

/-- The command line of a program: its name, and its arguments without the first mark. -/
def commandLine (prog : Text) (args : List Text) : List Text :=
  (if prog = [] then usualName else prog) :: args.erase argumentMark

/-- What came of a program: the exit status, the fault that nothing dealt with, and the world. -/
structure Exit where
  status : Nat
  fault : Option (RunFault Backend.Fault)
  world : World Backend.Session

def runProgram (configFile : Option Text) (prog : Text) (args : List Text) (w : World Backend.Session) : Exit :=
  let run := Driver.run Backend.kind { configFile } (commandLine prog args) w
  match run.result with
  | .ok status => ⟨status, none, run.world⟩
  | .error (.toolchain (.unusable path problem)) =>
    let e := Toolchain.Fault.unusable path problem
    ⟨1, none, { run.world with err := run.world.err.printError e.message }⟩
  | .error e => ⟨1, some e, run.world⟩

end ScriptDriver
