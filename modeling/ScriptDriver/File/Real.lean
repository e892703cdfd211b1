import ScriptDriver.File.Disk
/-!
# Real — paths without links

The real location of a path is found by following every link on the way.  Names that do not exist, or that may not be
looked up, stand for themselves, so a path need not lead anywhere.  A link that leads to itself cannot be followed: from
there on the names are taken as they are written, and if the result still leads round in a circle it is refused.
-/
namespace ScriptDriver.File

def Location.text (l : Location) : Text := "/" ++ Text.joinWith "/" (l.map Text.ofBytes)

/-- What following every link came to. -/
inductive Real where
  | settled (location : Location)
  /-- The link at `location` leads to itself, and `rest` is still to go. -/
  | circle (location : Location) (rest : List Name)

/-- The location that names lead to from `cur` if there are no links. -/
def written (cur : Location) : List Name → Location
  | [] => cur
  | name :: rest =>
    if name = [] ∨ name = [0x2E] then written cur rest
    else if name = [0x2E, 0x2E] then written cur.dropLast rest
    else written (cur ++ [name]) rest

namespace Disk

/-- Goes along names from `cur`; `enter` says where a link leads. -/
def realAlong (d : Disk) (enter : Location → List UInt8 → Real) (cur : Location) : List Name → Real
  | [] => .settled cur
  | name :: rest =>
    if name = [] ∨ name = [0x2E] then d.realAlong enter cur rest
    else if name = [0x2E, 0x2E] then d.realAlong enter cur.dropLast rest
    else
      -- a name that is not there, or that cannot be looked up, stands for itself
      match if d.bars cur then none else d.entry? (cur ++ [name]) with
      | some (.link target) =>
        match enter (cur ++ [name]) target with
        | .settled l => d.realAlong enter l rest
        | .circle l more => .circle l (more ++ rest)
      | _ => d.realAlong enter (cur ++ [name]) rest

/-- Goes along names while the links `opened` are being followed; at most `depth` more can be. -/
def realFrom (d : Disk) : Nat → List Location → Location → List Name → Real
  | 0, _, cur, names => .circle cur names
  | depth + 1, opened, cur, names =>
    d.realAlong
      (fun l target =>
        if opened.contains l then .circle l []
        else d.realFrom depth (l :: opened) (if startsAtRoot target then [] else l.dropLast) (namesOf target))
      cur names

/-- The location of a path when every link has been followed. -/
def real (d : Disk) (path : Text) : Location :=
  let bytes := path.toBytes
  -- no more links than there are entries can be followed before one leads to itself
  match d.realFrom (d.entries.length + 2) [] (if startsAtRoot bytes then [] else d.here) (namesOf bytes) with
  | .settled l => l
  | .circle l rest => written l rest

def workingDirectory (d : Disk) : Path := Path.ofText d.here.text

/-- The location of a path, links that go round in a circle being refused. -/
def resolve (d : Disk) (path : Path) : Except Fault Location :=
  if path.toText.toBytes.contains 0 then .error .nullCharacter
  else
    let l := d.real path.toText
    match d.locate l.text with
    | .error (.refused e) => if e.refusal = .tooManyLinks then .error (.linkLoop l.text) else .ok l
    | _ => .ok l

end Disk
end ScriptDriver.File
