import ScriptDriver.Text.Quoted
/-!
# Path — paths as they are written

A path is read into its anchor and its parts.  Repeated separators, separators at the end and parts `.` say nothing and
are left out; parts `..` are kept, since what they mean depends on links.  Exactly two separators at the beginning are
an anchor of their own.
-/
namespace ScriptDriver.File

inductive Anchor where
  | here
  | root
  | doubleRoot
  deriving DecidableEq, Inhabited

def Anchor.text : Anchor → Text
  | .here => []
  | .root => "/"
  | .doubleRoot => "//"

/-- A path: an anchor, and the names of the parts from the outermost to the last. -/
structure Path where
  anchor : Anchor
  parts : List Text
  deriving DecidableEq, Inhabited

def isSeparator (g : Glyph) : Bool := g.is '/'

namespace Path

def anchorOf (t : Text) : Anchor :=
  match (t.takeWhile isSeparator).length with
  | 0 => .here
  | 2 => .doubleRoot
  | _ => .root

def ofText (t : Text) : Path := ⟨anchorOf t, (t.fields isSeparator).filter (· ≠ ".")⟩

/-- The text of a path; a path of nothing at all is a dot. -/
def toText (p : Path) : Text :=
  if p.anchor = .here ∧ p.parts = [] then "." else p.anchor.text ++ Text.joinWith "/" p.parts

/-- The last part; empty if there is none. -/
def name (p : Path) : Text := p.parts.getLast?.getD []

/-- What comes before the last dot of a name, if neither side of that dot is empty. -/
def stemOf? (name : Text) : Option Text :=
  let extension := name.reverse.takeWhile (!·.is '.')
  let stem := (name.reverse.drop (extension.length + 1)).reverse
  if extension = [] ∨ stem = [] then none else some stem

def stem (p : Path) : Text := (stemOf? p.name).getD p.name

def parent (p : Path) : Path := { p with parts := p.parts.dropLast }

def isAbsolute (p : Path) : Bool := p.anchor ≠ .here

/-- Whether the path has more than one part, the root being one. -/
def isCompound (p : Path) : Bool := 1 < p.parts.length + (if p.isAbsolute then 1 else 0)

/-- The path `q` as seen from `p`. -/
def join (p q : Path) : Path := if q.isAbsolute then q else { p with parts := p.parts ++ q.parts }

def addToName (p : Path) (ending : Text) : Path := { p with parts := p.parts.dropLast ++ [p.name ++ ending] }

end Path
end ScriptDriver.File
