import ScriptDriver.File.Fault
/-!
# Disk — files, directories and links

A disk is a table of entries by location, a location being the list of names from the root down, and the directory that
relative paths start from.  Some directories may not be entered, some may not be changed, and some files have several
names.  A path is walked name by name; links on the way are followed, up to a fixed number of them, and a link at the very
end only if that is asked for.
-/
namespace ScriptDriver.File

abbrev Name := List UInt8

/-- A place on a disk: the names from the root down, none of them a link. -/
abbrev Location := List Name

inductive Entry where
  | file (content : List UInt8)
  | directory
  | link (target : List UInt8)
  deriving DecidableEq

/-- The terms on which a disk is used.  Unless it is said, all of it may be entered and changed, and each file has one
name. -/
class Terms where
  /-- Directories that may not be entered; neither may what is in them. -/
  shut : List Location := []
  /-- Directories in which no name may be made or taken away. -/
  fixed : List Location := []
  /-- The names of files that have more than one, file by file. -/
  shared : List (List Location) := []

instance : Terms := {}

/-- The entries of a file system and the working directory.  The root is always there and is not listed. -/
structure Disk where
  entries : List (Location × Entry)
  here : Location
  [terms : Terms]

namespace Disk

def entry? (d : Disk) (l : Location) : Option Entry :=
  if l = [] then some .directory else (d.entries.find? (·.1 = l)).map (·.2)

def erase (d : Disk) (l : Location) : Disk := { d with entries := d.entries.filter (·.1 ≠ l) }

def put (d : Disk) (l : Location) (e : Entry) : Disk := { d.erase l with entries := (l, e) :: (d.erase l).entries }

/-- Whether the names in a directory may not be looked up. -/
def bars (d : Disk) (l : Location) : Bool := d.terms.shut.any (·.isPrefixOf l)

/-- Whether the directory that a location lies in may not be changed. -/
def fixes (d : Disk) (l : Location) : Bool := d.terms.fixed.contains l.dropLast

def isFileAt (d : Disk) (l : Location) : Bool :=
  match d.entry? l with
  | some (.file _) => true
  | _ => false

/-- The names of the file at a location: that location itself, and the files that are said to be the same. -/
def names (d : Disk) (l : Location) : List Location :=
  l :: (d.terms.shared.filter (·.contains l)).flatten.filter d.isFileAt

/-- Gives a file its content, under all of its names. -/
def fill (d : Disk) (l : Location) (content : List UInt8) : Disk := (d.names l).foldl (·.put · (.file content)) d

/-- Takes one name of a file away, or a link. -/
def unlink (d : Disk) (l : Location) : Disk :=
  { d.erase l with terms := { d.terms with shared := d.terms.shared.map (·.filter (· ≠ l)) } }

/-- Moves the entry `e` from `source` to `goal`. -/
def rename (d : Disk) (source goal : Location) (e : Entry) : Disk :=
  { (d.erase source).put goal e with
    terms := { d.terms with
      shared := d.terms.shared.map fun names =>
        (names.filter (· ≠ goal)).map fun l => if l = source then goal else l } }

end Disk

/-! ## Walking -/

/-- The most links that are followed on the way to one place. -/
def linkLimit : Nat := 40

def nameLimit : Nat := 255

/-- The least number of bytes that is too many for a path. -/
def pathLimit : Nat := 4096

/-- How the last part of a path was written: a plain name, a name and a separator, or no name at all (a root, `.` or
`..`). -/
inductive Ending where
  | name
  | separator
  | noName
  deriving DecidableEq

/-- Where a path leads: to an entry, or to a name that a directory does not have. -/
inductive Place where
  | found (location : Location) (entry : Entry) (ending : Ending)
  | missing (location : Location) (ending : Ending)
  deriving DecidableEq

def Place.location : Place → Location
  | .found l _ _ | .missing l _ => l

def Place.entry? : Place → Option Entry
  | .found _ e _ => some e
  | .missing _ _ => none

/-- How far the names lead without following a link. -/
inductive Stretch where
  | done (place : Place)
  | refused (refusal : Refusal)
  /-- A link in the directory `base` is met, and `rest` is still to go. -/
  | link (base : Location) (target : List UInt8) (rest : List Name)

/-- The names of a written path.  An empty last name stands for a separator at the end. -/
def namesOf : List UInt8 → List Name
  | [] => [[]]
  | b :: bytes =>
    match namesOf bytes with
    | [] => [[]]
    | name :: names => if b = 0x2F then [] :: name :: names else (b :: name) :: names

def startsAtRoot (bytes : List UInt8) : Bool := bytes.head? = some 0x2F

/-- What nothing but separators says after a name. -/
def endingOf (rest : List Name) : Ending := if rest = [] then .name else .separator

namespace Disk

/-- Goes along names from the directory `cur` up to a link that has to be followed. -/
def along (d : Disk) (follow : Bool) (cur : Location) : List Name → Stretch
  | [] => .done (.found cur .directory .noName)
  | name :: rest =>
    if name = [] then d.along follow cur rest
    else if d.bars cur then .refused .denied
    else if name = [0x2E] then d.along follow cur rest
    else if name = [0x2E, 0x2E] then d.along follow cur.dropLast rest
    else if nameLimit < name.length then .refused .nameTooLong
    else
      -- nothing but separators can follow the last name
      let last := rest.all (· = [])
      match d.entry? (cur ++ [name]) with
      | none => if last then .done (.missing (cur ++ [name]) (endingOf rest)) else .refused .notFound
      | some .directory =>
        if last then .done (.found (cur ++ [name]) .directory (endingOf rest)) else d.along follow (cur ++ [name]) rest
      | some (.file content) =>
        if last then .done (.found (cur ++ [name]) (.file content) (endingOf rest)) else .refused .notDirectory
      | some (.link target) =>
        if rest = [] && !follow then .done (.found (cur ++ [name]) (.link target) .name)
        else .link cur target rest

/-- Goes along names and follows links, at most `links` of them. -/
def walkFrom (d : Disk) (follow : Bool) : Nat → Location → List Name → Except Refusal Place
  | links, cur, names =>
    match d.along follow cur names with
    | .done place => .ok place
    | .refused refusal => .error refusal
    | .link base target rest =>
      match links with
      | 0 => .error .tooManyLinks
      | links + 1 => d.walkFrom follow links (if startsAtRoot target then [] else base) (namesOf target ++ rest)

/-- Where a path leads. -/
def walk (d : Disk) (follow : Bool) (path : Text) : Except Fault Place :=
  let bytes := path.toBytes
  if bytes.contains 0 then .error .nullCharacter
  else if bytes = [] then .error (.refused { refusal := .notFound, path })
  else if pathLimit ≤ bytes.length then .error (.refused { refusal := .nameTooLong, path })
  else
    match d.walkFrom follow linkLimit (if startsAtRoot bytes then [] else d.here) (namesOf bytes) with
    | .ok place => .ok place
    | .error refusal => .error (.refused { refusal, path })

/-! ## Looking -/

/-- The entry that a path leads to, links followed, and its location. -/
def locate (d : Disk) (path : Text) : Except Fault (Location × Entry) :=
  match d.walk true path with
  | .error e => .error e
  | .ok (.missing _ _) => .error (.refused { refusal := .notFound, path })
  | .ok (.found l (.file content) .name) => .ok (l, .file content)
  | .ok (.found _ (.file _) _) => .error (.refused { refusal := .notDirectory, path })
  | .ok (.found l e _) => .ok (l, e)

def read (d : Disk) (path : Text) : Except Fault (Location × List UInt8) :=
  match d.locate path with
  | .error e => .error e
  | .ok (l, .file content) => .ok (l, content)
  | .ok _ => .error (.refused { refusal := .isDirectory, path })

/-- Whether what a path leads to is one of the entries that `p` accepts.  Where nothing is, nothing is accepted; a
refusal that says something else is an error. -/
def test (d : Disk) (p : Entry → Bool) (path : Text) : Except Fault Bool :=
  match d.locate path with
  | .ok (_, e) => .ok (p e)
  | .error (.refused e) => if e.refusal.saysNothing then .ok false else .error (.refused e)
  | .error _ => .ok false

def «exists» (d : Disk) (path : Text) : Except Fault Bool := d.test (fun _ => true) path

def isDirectory (d : Disk) (path : Text) : Except Fault Bool := d.test (· = .directory) path

def isFile (d : Disk) (path : Text) : Except Fault Bool :=
  d.test (fun e => match e with | .file _ => true | _ => false) path

/-! ## Changing -/

def makeDirectory (d : Disk) (path : Text) : Except Fault Disk :=
  match d.walk false path with
  | .error e => .error e
  | .ok (.found _ _ _) => .error (.refused { refusal := .alreadyExists, path })
  | .ok (.missing l _) =>
    if d.fixes l then .error (.refused { refusal := .denied, path }) else .ok (d.put l .directory)

/-- Opens a file for writing: it is made or emptied, and its location is given. -/
def openNew (d : Disk) (path : Text) : Except Fault (Location × Disk) :=
  match d.walk true path with
  | .error e => .error e
  | .ok (.found l (.file _) .name) => .ok (l, d.fill l [])
  | .ok (.missing l .name) =>
    if d.fixes l then .error (.refused { refusal := .denied, path }) else .ok (l, d.fill l [])
  | .ok _ => .error (.refused { refusal := .isDirectory, path })

/-- Takes a name of a file away, or a link. -/
def remove (d : Disk) (path : Text) : Except Fault Disk :=
  match d.walk false path with
  | .error e => .error e
  | .ok (.missing _ _) => .error (.refused { refusal := .notFound, path })
  | .ok (.found l e ending) =>
    -- a path that ends in no name is that of a directory, whatever may be done with it
    if d.fixes l && ending ≠ .noName then .error (.refused { refusal := .denied, path })
    else if e = .directory then .error (.refused { refusal := .isDirectory, path })
    else .ok (d.unlink l)

/-- Gives the file or link at the path `source` the name `path`, in place of a file or link that has it.  Nothing is done
if both are names of one file. -/
def replace (d : Disk) (source path : Text) : Except Fault Disk :=
  let refuse := fun refusal => Except.error (.refused { refusal, path := source, destination := some path })
  let named := fun (e : Fault) => match e with
    | .refused e => refuse e.refusal
    | e => .error e
  match d.walk false source with
  | .error e => named e
  | .ok start =>
    match d.walk false path with
    | .error e => named e
    | .ok goal =>
      -- how both paths end is looked at before what they lead to
      match start, goal with
      | .found _ _ .noName, _ | _, .found _ _ .noName => refuse .busy
      | .missing _ _, _ => refuse .notFound
      | .found source e _, goal =>
        if (d.names source).contains goal.location then .ok d
        else if d.fixes source || d.fixes goal.location then refuse .denied
        else if e = .directory ∨ goal.entry? = some .directory then refuse .isDirectory
        else .ok (d.rename source goal.location e)

end Disk
end ScriptDriver.File
