import ScriptDriver.File.Path
import ScriptDriver.Text.Charset
/-!
# Fault — what can go wrong with files

The file system refuses with a number and names the path, or both paths of a renaming.  Some paths never reach it: a
text with a null character is no path, and one without a last part cannot be written to.
-/
namespace ScriptDriver.File

inductive Refusal where
  | notFound
  | denied
  | busy
  | alreadyExists
  | notDirectory
  | isDirectory
  | nameTooLong
  | tooManyLinks
  deriving DecidableEq, Inhabited

def Refusal.number : Refusal → Nat
  | .notFound => 2
  | .denied => 13
  | .busy => 16
  | .alreadyExists => 17
  | .notDirectory => 20
  | .isDirectory => 21
  | .nameTooLong => 36
  | .tooManyLinks => 40

def Refusal.words : Refusal → Text
  | .notFound => "No such file or directory"
  | .denied => "Permission denied"
  | .busy => "Device or resource busy"
  | .alreadyExists => "File exists"
  | .notDirectory => "Not a directory"
  | .isDirectory => "Is a directory"
  | .nameTooLong => "File name too long"
  | .tooManyLinks => "Too many levels of symbolic links"

/-- Whether a refusal only says that there is nothing at a path. -/
def Refusal.saysNothing : Refusal → Bool
  | .notFound | .notDirectory | .tooManyLinks => true
  | _ => false

/-- A refusal about a path, or about renaming a path to another one. -/
structure Refused where
  refusal : Refusal
  path : Text
  destination : Option Text := none
  deriving DecidableEq

def Refused.message (e : Refused) : Text :=
  "[Errno " ++ Text.ofNat e.refusal.number ++ "] " ++ e.refusal.words ++ ": " ++ e.path.quoted ++
    (match e.destination with
      | some path => " -> " ++ path.quoted
      | none => [])

inductive Fault where
  | refused (e : Refused)
  /-- The text has a null character. -/
  | nullCharacter
  /-- The path has no last part to write to. -/
  | unnamed (path : Path)
  /-- The links on the way go round in a circle. -/
  | linkLoop (path : Text)
  | unencodable (e : Charset.Unencodable)
  deriving DecidableEq

def Fault.message : Fault → Text
  | .refused e => e.message
  | .nullCharacter => "embedded null byte"
  | .unnamed path => "PosixPath(" ++ path.toText.quoted ++ ") has an empty name"
  | .linkLoop path => "Symlink loop from " ++ path.quoted
  | .unencodable e => e.message

/-- Whether the file system itself refused. -/
def Fault.isRefusal : Fault → Bool
  | .refused _ => true
  | _ => false

end ScriptDriver.File
