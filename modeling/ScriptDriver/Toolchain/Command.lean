import ScriptDriver.Text.Blank
import ScriptDriver.Toolchain.Basic
/-!
# Command — the words of a command

A command is split as a shell splits it: blanks separate, quotes group, and a backslash takes the next glyph as it is,
between double quotes only if that is a double quote or a backslash.  A command that ends inside of quotes or after a
backslash is split at white space instead.
-/
namespace ScriptDriver.Toolchain

open File (Path)

/-- Where in a command a glyph stands. -/
inductive Quoting where
  | outside
  | single
  | double
  /-- After a backslash outside of quotes. -/
  | escape
  /-- After a backslash between double quotes. -/
  | escapeInDouble
  deriving DecidableEq

/-- A command being split.  The word being read, if one has begun, and the words read are kept last first. -/
structure Splitting where
  quoting : Quoting := .outside
  current : Option Text := none
  words : List Text := []

namespace Splitting

def push (s : Splitting) (quoting : Quoting) (g : Glyph) : Splitting :=
  { s with quoting, current := some (g :: s.current.getD []) }

/-- A word begins if none has, and the glyph changes the quoting only. -/
def turn (s : Splitting) (quoting : Quoting) : Splitting := { s with quoting, current := some (s.current.getD []) }

def close (s : Splitting) : Splitting :=
  match s.current with
  | none => s
  | some word => { s with current := none, words := word.reverse :: s.words }

def isSpace (g : Glyph) : Bool := g.is ' ' || g.is '\t' || g.is '\r' || g.is '\n'

def step (s : Splitting) (g : Glyph) : Splitting :=
  match s.quoting with
  | .outside =>
    if isSpace g then s.close
    else if g.is '\'' then s.turn .single
    else if g.is '"' then s.turn .double
    else if g.is '\\' then { s with quoting := .escape }
    else s.push .outside g
  | .single => if g.is '\'' then s.turn .outside else s.push .single g
  | .double =>
    if g.is '"' then s.turn .outside
    else if g.is '\\' then { s with quoting := .escapeInDouble }
    else s.push .double g
  | .escape => s.push .outside g
  | .escapeInDouble =>
    if g.is '"' || g.is '\\' then s.push .double g else (s.push .double (.char '\\')).push .double g

end Splitting

/-- The words of a command, unless it ends too early. -/
def shellWords? (command : Text) : Option (List Text) :=
  let s := command.foldl Splitting.step {}
  if s.quoting = .outside then some s.close.words.reverse else none

/-- The words of a command. -/
def words (command : Text) : List Text := (shellWords? command).getD command.words

/-- What is run when a command has no words. -/
def usualCommand : List Text := ["clang"]

/-- The program that a word names: a relative path of several parts is seen from `root`, all else stands as it is. -/
def program (root : Path) (word : Text) : Text :=
  let path := Path.ofText word
  if !path.isAbsolute && path.isCompound then (root.join path).toText else word

/-- The program and the first arguments of the command of a toolchain. -/
def backendCommand (t : Toolchain) (here : Path) : List Text :=
  match words t.command with
  | [] => usualCommand
  | word :: rest => program (t.root here) word :: rest

end ScriptDriver.Toolchain
