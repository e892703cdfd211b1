import ScriptDriver.File.Disk
/-!
# Atomic — files written in one step

A text is first written to a temporary file beside its destination, which then takes the destination's name; so the
destination holds either what it held before or all of the text.  Whatever fails, the temporary file is taken away if it
can be.  Actions give the disk back also when they fail.
-/
namespace ScriptDriver.File

def temporaryEnding : Text := ".tmp"

def Path.temporary (p : Path) : Path := p.addToName temporaryEnding

namespace Disk

/-- After making the directory at `p` was refused: nothing is wrong if there is a directory. -/
def orDirectory (d : Disk) (p : Path) (e : Fault) : Option Fault :=
  if e.isRefusal then
    match d.isDirectory p.toText with
    | .ok true => none
    | .ok false => some e
    | .error e => some e
  else some e

/-- Whether a directory could not be made because the one around it is missing. -/
def lacksParent : Fault → Bool
  | .refused e => e.refusal = .notFound
  | _ => false

/-- Makes the directory at a path, and all around it that are missing.  The path is given by its anchor and its parts, the
last one first. -/
def makeDirectories (d : Disk) (anchor : Anchor) : List Text → Disk × Option Fault
  | [] =>
    match d.makeDirectory (Path.mk anchor []).toText with
    | .ok d => (d, none)
    | .error e => (d, if lacksParent e then some e else d.orDirectory ⟨anchor, []⟩ e)
  | part :: outer =>
    let p : Path := ⟨anchor, (part :: outer).reverse⟩
    match d.makeDirectory p.toText with
    | .ok d => (d, none)
    | .error e =>
      if lacksParent e then
        match d.makeDirectories anchor outer with
        | (d, some e) => (d, some e)
        -- now the one around it is there, and nothing else is missing
        | (d, none) =>
          match d.makeDirectory p.toText with
          | .ok d => (d, none)
          | .error e => (d, if lacksParent e then some e else d.orDirectory p e)
      else (d, d.orDirectory p e)

def ensureParent (d : Disk) (p : Path) : Disk × Option Fault :=
  match d.exists p.parent.toText with
  | .error e => (d, some e)
  | .ok true => (d, none)
  | .ok false => d.makeDirectories p.parent.anchor p.parent.parts.reverse

/-- The disk without the file at a path, as far as it can be taken away. -/
def discard (d : Disk) (path : Text) : Disk :=
  match d.remove path with
  | .ok d => d
  | .error _ => d

/-- Writes a text to the file at a path: the file is made or emptied first. -/
def write (d : Disk) (path : Text) (charset : Charset) (t : Text) : Disk × Option Fault :=
  match d.openNew path with
  | .error e => (d, some e)
  | .ok (l, d) =>
    match charset.encode t with
    | .error e => (d, some (.unencodable e))
    | .ok bytes => (d.fill l bytes, none)

/-- Writes a text to the temporary file of a destination and gives that file the destination's name. -/
def writeAndReplace (d : Disk) (p : Path) (charset : Charset) (t : Text) : Disk × Option Fault :=
  match d.write p.temporary.toText charset t with
  | (d, some e) => (d, some e)
  | (d, none) =>
    match d.replace p.temporary.toText p.toText with
    | .ok d => (d, none)
    | .error e => (d, some e)

/-- Writes a text to a file in one step. -/
def writeAtomically (d : Disk) (p : Path) (charset : Charset) (t : Text) : Disk × Option Fault :=
  if p.name = [] then (d, some (.unnamed p))
  else
    match d.writeAndReplace p charset t with
    | (d, none) => (d, none)
    | (d, some e) => (d.discard p.temporary.toText, some e)

end Disk
end ScriptDriver.File
