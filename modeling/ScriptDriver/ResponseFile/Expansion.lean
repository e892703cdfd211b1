import ScriptDriver.File.Real
import ScriptDriver.ResponseFile.Token
/-!
# Expansion — arguments read from response files

An argument that starts with an at sign refers to a file, and the arguments written in that file take its place, those
that are references in turn.  A reference that cannot be read stays as it is.  So does one to a file that is being
expanded already, or nested too deeply; that one is recorded as skipped.  A name that is no path at all stops the
expansion.
-/
namespace ScriptDriver.ResponseFile

open File (Location Disk)

/-- What a reference comes to. -/
inductive Referent where
  | file (location : Location) (text : Text)
  | unreadable
  /-- The name is no path. -/
  | invalid (e : File.Fault)

abbrev Lookup := Text → Referent

/-- What the file with a name comes to on a disk; its location is that of the path with every link followed. -/
def ofDisk (d : Disk) : Lookup := fun name =>
  match d.read name with
  | .ok (_, content) => .file (d.real name) (Text.ofBytes content)
  | .error (.refused _) => .unreadable
  | .error e => .invalid e

def reference? : Text → Option Text
  | .char '@' :: name => some name
  | _ => none

def referenceTo (name : Text) : Text := .char '@' :: name

/-- What expanding comes to: the arguments and the names of the references that were skipped, in order, up to the fault
that stopped it. -/
structure Expansion where
  args : List Text
  skipped : List Text
  fault : Option File.Fault := none

namespace Expansion

def nothing : Expansion := ⟨[], [], none⟩

def keep (arg : Text) : Expansion := ⟨[arg], [], none⟩

def skip (name : Text) : Expansion := ⟨[referenceTo name], [name], none⟩

def stop (e : File.Fault) : Expansion := ⟨[], [], some e⟩

/-- One expansion after the other; nothing comes after a fault. -/
def andThen (a b : Expansion) : Expansion :=
  match a.fault with
  | some _ => a
  | none => ⟨a.args ++ b.args, a.skipped ++ b.skipped, b.fault⟩

def each (expand : Text → Expansion) : List Text → Expansion
  | [] => nothing
  | arg :: args => (expand arg).andThen (each expand args)

end Expansion

/-- Expands one argument; `enter` expands the text of a file, unless the file is to be skipped. -/
def expandArg (lookup : Lookup) (enter : Location → Text → Option Expansion) (arg : Text) : Expansion :=
  match reference? arg with
  | none => .keep arg
  | some name =>
    match lookup name with
    | .unreadable => .keep arg
    | .invalid e => .stop e
    | .file l text => (enter l text).getD (.skip name)

/-- Expands arguments while the files `opened` are being expanded and `room` more may be. -/
def expandWithin (lookup : Lookup) : Nat → List Location → List Text → Expansion
  | 0, _, args => .each (expandArg lookup fun _ _ => none) args
  | room + 1, opened, args =>
    .each
      (expandArg lookup fun l text =>
        if opened.contains l then none else some (expandWithin lookup room (l :: opened) (tokens text)))
      args

def usualDepth : Int := 64

/-- Expands arguments with references nested at most `depth` deep. -/
def expand (lookup : Lookup) (depth : Int) (args : List Text) : Expansion := expandWithin lookup depth.toNat [] args

/-- Expands one command line after the other and keeps what was skipped. -/
structure Expander where
  depth : Int := usualDepth
  skipped : List Text := []

def Expander.expand (x : Expander) (lookup : Lookup) (args : List Text) : Except File.Fault (List Text) × Expander :=
  let e := ResponseFile.expand lookup x.depth args
  (match e.fault with
    | none => .ok e.args
    | some fault => .error fault,
   { x with skipped := x.skipped ++ e.skipped })

end ScriptDriver.ResponseFile
