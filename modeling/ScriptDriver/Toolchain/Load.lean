import ScriptDriver.File.Real
import ScriptDriver.Toml.Reader
import ScriptDriver.Toolchain.Basic
/-!
# Load — reading the configuration file

The file is the one that the environment names, or else the nearest one at or above the directory in which the search
starts.  What it says is taken item by item, and of several unfit items the first one is reported; an item that is not
there has its usual value.
-/
namespace ScriptDriver.Toolchain

open File (Path Disk Location)
open Toml (Table Value)

/-! ## Discovery -/

def fileName : Text := "rscc.toml"

def fileIn (dir : Location) : Path := (Path.ofText dir.text).join (Path.ofText fileName)

/-- A location and all that it lies in, the nearest first. -/
def ancestry (l : Location) : List Location := (List.range (l.length + 1)).map fun i => l.take (l.length - i)

/-- The nearest of the directories that has a configuration file. -/
def nearest (d : Disk) : List Location → Except File.Fault (Option Path)
  | [] => .ok none
  | dir :: rest =>
    match d.isFile (fileIn dir).toText with
    | .error e => .error e
    | .ok true => .ok (some (fileIn dir))
    | .ok false => nearest d rest

/-- The configuration file that `named` says, or the nearest one from `start`, if there is one. -/
def discover (d : Disk) (named : Option Text) (start : Option Path) : Except File.Fault (Option Path) :=
  let named := named.getD []
  if named ≠ [] then .ok (some (Path.ofText named))
  else
    match d.resolve (start.getD d.workingDirectory) with
    | .error e => .error e
    | .ok l => nearest d (ancestry l)

/-! ## Validation -/

inductive Kind where
  | string
  | integer
  | list
  deriving DecidableEq

def Kind.name : Kind → Text
  | .string => "str"
  | .integer => "int"
  | .list => "list"

/-- What makes a configuration file unusable. -/
inductive Problem where
  | unreadable (e : File.Refused)
  | malformed
  /-- One of the two sections is no table. -/
  | sections
  | features
  /-- An item is of the wrong kind; `shown` is how it is spelled. -/
  | kind (item : Text) (kind : Kind) (shown : Text)
  deriving DecidableEq

inductive Fault where
  | unusable (path : Path) (problem : Problem)
  | undecodable (e : Utf8.Undecodable)
  /-- The file has an integer that cannot be read or shown. -/
  | integer (e : Decimal.TooLong)
  | search (e : File.Fault)
  deriving DecidableEq

def Fault.message : Fault → Text
  | .unusable path problem =>
    let path := path.toText
    match problem with
    | .unreadable e => "Cannot read " ++ path ++ ": " ++ e.message
    | .malformed => "Invalid TOML in " ++ path
    | .sections => path ++ ": [target] and [compiler] must be tables"
    | .features => path ++ ": 'features' must be a list of strings"
    | .kind item kind shown => path ++ ": '" ++ item ++ "' must be of type " ++ kind.name ++ ", got " ++ shown
  | .undecodable e => e.message
  | .integer e => e.message
  | .search e => e.message

/-- An item of a section, seen as what it has to be; its usual value if it is not there. -/
def item {α : Type} (path : Path) (table : Table) (name : Text) (kind : Kind) (view : Value → Option α) (usual : α) :
    Except Fault α :=
  match table.get? name with
  | none => .ok usual
  | some v =>
    match view v with
    | some a => .ok a
    | none =>
      match v.spelling with
      | .ok shown => .error (.unusable path (.kind name kind shown))
      | .error e => .error (.integer e)

def featuresItem (path : Path) (table : Table) : Except Fault (List Text) :=
  match item path table "features" .list Value.items? (({} : Target).features.map .string) with
  | .error e => .error e
  | .ok items =>
    match items.mapM Value.string? with
    | some features => .ok features
    | none => .error (.unusable path .features)

/-- A section of a document, if it is a table or not there. -/
def section? (document : Table) (name : Text) : Option Table :=
  match document.get? name with
  | none => some []
  | some v => v.entries?

def ofDocument (path : Path) (document : Table) : Except Fault Toolchain :=
  match section? document "target", section? document "compiler" with
  | some target, some compiler => do
    let features ← featuresItem path target
    let triple ← item path target "triple" .string Value.string? ({} : Target).triple
    let cpu ← item path target "cpu" .string Value.string? ({} : Target).cpu
    let targetApi ← item path target "api" .integer Value.integer? usualApi
    let command ← item path compiler "command" .string Value.string? ({} : Toolchain).command
    let timeout ← item path compiler "timeout" .integer Value.integer? ({} : Toolchain).timeout
    pure { path := some path, target := ⟨triple, cpu, features⟩, targetApi, command, timeout }
  | _, _ => .error (.unusable path .sections)

def documentOf (path : Path) (bytes : List UInt8) : Except Fault Table :=
  match Utf8.strict bytes with
  | .error e => .error (.undecodable e)
  | .ok chars =>
    match Toml.read chars with
    | .error .malformed => .error (.unusable path .malformed)
    | .error (.tooLong e) => .error (.integer e)
    | .ok document => .ok document

def ofFile (d : Disk) (path : Path) : Except Fault Toolchain :=
  match d.read path.toText with
  | .error (.refused e) => .error (.unusable path (.unreadable e))
  | .error e => .error (.search e)
  | .ok (_, bytes) =>
    match documentOf path bytes with
    | .error e => .error e
    | .ok document => ofDocument path document

/-- The toolchain of a project: what its configuration file says, or the usual one if there is no such file. -/
def load (d : Disk) (named : Option Text) (start : Option Path) : Except Fault Toolchain :=
  match discover d named start with
  | .error e => .error (.search e)
  | .ok none => .ok {}
  | .ok (some path) => ofFile d path

end ScriptDriver.Toolchain
