import ScriptDriver.Program
/-!
# Main — the program on a real file system

The working directory and the configuration files above it are read into a disk, the program is run on it, and what has
changed is written back.  Backend commands are not started here: they are listed on standard output, one a line with
every word quoted, and taken to succeed.
-/
namespace ScriptDriver.Main

open File (Disk Entry Location Name)

/-- The environment variable that names the configuration file. -/
def configVariable : String := "RSCC_CONFIG"

def nameOf (s : String) : Name := (Text.ofString s).toBytes

def locationOf (path : String) : Location := (File.namesOf (nameOf path)).filter (· ≠ [])

def pathOf (l : Location) : String := (l.text.toString?).getD ""

/-- An entry of the directory `dir` with all that is below it.  Links to directories are not entered. -/
partial def entriesAt (dir : Location) (entry : IO.FS.DirEntry) : IO (List (Location × Entry)) := do
  let l := dir ++ [nameOf entry.fileName]
  if ← entry.path.isDir then
    if (← IO.FS.realPath entry.path).toString ≠ pathOf l then pure []
    else
      let inner ← (← entry.path.readDir).toList.mapM (entriesAt l)
      pure ((l, .directory) :: inner.flatten)
  else
    let content ← IO.FS.readBinFile entry.path
    pure [(l, .file content.toList)]

/-- A directory, and the configuration file in it if that can be read. -/
def entriesIn (dir : Location) : IO (List (Location × Entry)) := do
  let l := dir ++ [Toolchain.fileName.toBytes]
  try
    let content ← IO.FS.readBinFile (pathOf l)
    pure [(dir, .directory), (l, .file content.toList)]
  catch _ => pure [(dir, .directory)]

def readDisk : IO Disk := do
  let root ← IO.FS.realPath (← IO.currentDir)
  let here := locationOf root.toString
  let above ← ((Toolchain.ancestry here).drop 1).mapM entriesIn
  let below ← (← root.readDir).toList.mapM (entriesAt here)
  pure ⟨(here, .directory) :: above.flatten ++ below.flatten, here⟩

/-- Writes back what has changed. -/
def writeBack (old new : Disk) : IO Unit := do
  for (l, e) in new.entries.reverse do
    if old.entry? l ≠ some e then
      match e with
      | .directory => IO.FS.createDirAll (pathOf l)
      | .file content => IO.FS.writeBinFile (pathOf l) ⟨content.toArray⟩
      | .link _ => pure ()
  for (l, _) in old.entries do
    if new.entry? l = none then IO.FS.removeFile (pathOf l)

def printText (stream : IO.FS.Stream) (t : Text) : IO Unit := stream.write ⟨t.toBytes.toArray⟩

def start (args : List String) : IO UInt32 := do
  let disk ← readDisk
  let configFile := (← IO.getEnv configVariable).map Text.ofString
  let screen := Console.Screen.blank 80
  let e := runProgram configFile usualName (args.map Text.ofString) ⟨disk, screen, screen, { outcomes := [] }⟩
  printText (← IO.getStdout) e.world.out.shown
  for run in e.world.outside.runs do
    printText (← IO.getStdout) (Text.joinWith " " (run.command.map Text.quoted) ++ "\n")
  printText (← IO.getStderr) e.world.err.shown
  if let some fault := e.fault then
    printText (← IO.getStderr) (fault.message Backend.Fault.message ++ "\n")
  writeBack disk e.world.disk
  pure e.status.toUInt32

end ScriptDriver.Main

def main (args : List String) : IO UInt32 := ScriptDriver.Main.start args
