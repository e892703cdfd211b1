import ScriptDriver.File.Disk
/-!
# Process — runs of another program

A run has one of a few outcomes, and may change the disk.  A session answers run after run with the outcomes it has been
given, and then with plain success, and keeps what was run.
-/
namespace ScriptDriver.Backend

open File (Disk)

/-- What comes of running a program. -/
inductive Outcome where
  | exited (status : Int) (output : List UInt8)
  | timedOut
  | notFound
  | denied
  /-- It could not be run for another reason. -/
  | failed (reason : Text)
  /-- Something went wrong that is not about this program. -/
  | crashed (reason : Text)
  deriving DecidableEq

/-- A program with its arguments, and the seconds it may take. -/
structure Run where
  command : List Text
  timeout : Int
  deriving DecidableEq

/-- The outcomes to come, the runs made, in order, and what a run that ends in some way does to the disk. -/
structure Session where
  outcomes : List Outcome
  runs : List Run := []
  touch : Run → Outcome → Disk → Disk := fun _ _ d => d

namespace Session

def run (s : Session) (r : Run) : Outcome × Session :=
  match s.outcomes with
  | [] => (.exited 0 [], { s with runs := s.runs ++ [r] })
  | o :: rest => (o, { s with outcomes := rest, runs := s.runs ++ [r] })

/-- The disk after a run.  Its working directory is that of another process, which no run can change. -/
def leaves (s : Session) (r : Run) (o : Outcome) (d : Disk) : Disk := { s.touch r o d with here := d.here }

end Session

end ScriptDriver.Backend
