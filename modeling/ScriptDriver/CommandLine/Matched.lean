import ScriptDriver.CommandLine.OptionTable
import ScriptDriver.Text.Decimal
/-!
# Matched — a command line read against an option table

Tokens are read from left to right.  A token that does not start with a dash, or is a lone dash, is an input.  Any other
is given to the first row, longest name first, that it `fit`s; one that fits no row is unknown.  Reading stops at the
first option that is short of values.
-/
namespace ScriptDriver.CommandLine

/-- How a token and those after it fit a row. -/
inductive Fit where
  | refused
  /-- The row accepts the token, but so many values are missing. -/
  | short (missing : Nat)
  /-- The row accepts the token with these values, the last `following` of them being tokens of their own. -/
  | taken (values : List Text) (following : Nat)
  deriving DecidableEq

def Fit.next : List Text → Fit
  | [] => .short 1
  | v :: _ => .taken [v] 1

/-- The fit of `token`, which begins with the row's name, and of the tokens after it. -/
def Descriptor.fit (d : Descriptor) (token : Text) (following : List Text) : Fit :=
  let exact := token.length = d.name.length
  let rest := token.drop d.name.length
  match d.kind with
  | .flag => if exact then .taken [] 0 else .refused
  | .joined => .taken [rest] 0
  | .separate => if exact then .next following else .refused
  | .joinedOrSeparate => if exact then .next following else .taken [rest] 0
  | .multi =>
    if exact then
      if following.length < d.arity then .short (d.arity - following.length)
      else .taken (following.take d.arity) d.arity
    else .refused
  | _ => .refused

/-- One matched argument: the option it counts as, the row it was typed as, the place of its token, its values. -/
structure Arg where
  option : Descriptor
  spelling : Descriptor
  index : Nat
  values : List Text
  deriving DecidableEq

namespace Arg

/-- The identifier the argument counts as. -/
def id (a : Arg) : OptionId := a.option.id

/-- The argument's value: the first, if there are several. -/
def value (a : Arg) : Text := a.values.headD []

def asText (a : Arg) : Text :=
  match a.spelling.kind with
  | .input | .unknown => a.value
  | .flag => a.spelling.name
  | .joined => a.spelling.name ++ a.value
  | _ => Text.joinWith " " (a.spelling.name :: a.values)

/-- Whether the argument counts as one of `ids`, by its option or by its option's group. -/
def among (a : Arg) (ids : List OptionId) : Bool :=
  ids.contains a.id ||
    (match a.option.group with
      | some g => ids.contains g
      | none => false)

end Arg

/-- An option short of values: the place of its token and the number of values missing. -/
structure Shortage where
  index : Nat
  missing : Nat
  deriving DecidableEq

/-- A command line read against a table. -/
structure Matched where
  tokens : List Text
  args : List Arg
  shortage : Option Shortage

/-- Whether a token is an input whatever the table. -/
def isInput (token : Text) : Bool := token = "-" || !("-" : Text).isPrefixOf token

namespace OptionTable

/-- The first of `candidates` that `token` fits, with the row it stands for and the fit. -/
def firstFit (t : OptionTable) (token : Text) (following : List Text) :
    List Descriptor → Except TableFault (Option (Descriptor × Descriptor × Fit))
  | [] => .ok none
  | d :: ds =>
    if d.name.isPrefixOf token then
      match t.resolve d with
      | .error e => .error e
      | .ok option =>
        if d.fit token following = .refused then t.firstFit token following ds
        else .ok (some (option, d, d.fit token following))
    else t.firstFit token following ds

/-- What the option token `token` at place `index` is read as, with the number of later tokens it takes. -/
def readOption (t : OptionTable) (token : Text) (following : List Text) (index : Nat) :
    Except TableFault (Except Shortage (Arg × Nat)) :=
  match t.firstFit token following t.matchable with
  | .error e => .error e
  | .ok none => .ok (.ok (⟨.unknown, .unknown, index, [token]⟩, 0))
  | .ok (some (option, d, fit)) =>
    match fit with
    | .refused => .ok (.ok (⟨.unknown, .unknown, index, [token]⟩, 0))
    | .short missing => .ok (.error ⟨index, missing⟩)
    | .taken values following => .ok (.ok (⟨option, d, index, values⟩, following))

/-- The arguments from place `index` on, the first `skip` tokens being values already taken. -/
def readAfter (t : OptionTable) : Nat → Nat → List Text → Except TableFault (List Arg × Option Shortage)
  | _, _, [] => .ok ([], none)
  | skip + 1, index, _ :: rest => t.readAfter skip (index + 1) rest
  | 0, index, token :: rest =>
    if isInput token then
      match t.readAfter 0 (index + 1) rest with
      | .error e => .error e
      | .ok (args, shortage) => .ok (⟨.input, .input, index, [token]⟩ :: args, shortage)
    else
      match t.readOption token rest index with
      | .error e => .error e
      -- nothing is read after an option that is short of values
      | .ok (.error shortage) => .ok ([], some shortage)
      | .ok (.ok (arg, following)) =>
        match t.readAfter following (index + 1) rest with
        | .error e => .error e
        | .ok (args, shortage) => .ok (arg :: args, shortage)

def read (t : OptionTable) (tokens : List Text) : Except TableFault Matched :=
  match t.readAfter 0 0 tokens with
  | .error e => .error e
  | .ok (args, shortage) => .ok ⟨tokens, args, shortage⟩

end OptionTable

namespace Matched

def filtered (m : Matched) (ids : List OptionId) : List Arg := m.args.filter (·.among ids)

def has (m : Matched) (ids : List OptionId) : Bool := m.args.any (·.among ids)

def last? (m : Matched) (ids : List OptionId) : Option Arg := (m.filtered ids).getLast?

def lastValue (m : Matched) (id : OptionId) (default : Text) : Text :=
  match m.last? [id] with
  | some a => a.value
  | none => default

def allValues (m : Matched) (id : OptionId) : List Text := (m.filtered [id]).flatMap (·.values)

/-- The token at a place; a negative place counts from the end. -/
def token? (m : Matched) (place : Int) : Option Text :=
  let place := if place < 0 then place + m.tokens.length else place
  if place < 0 then none else m.tokens[place.toNat]?

/-- What the last argument that counts as `id` says about an integer. -/
inductive IntegerReading where
  | absent
  | malformed (arg : Arg)
  | tooLong (e : Decimal.TooLong)
  | integer (n : Int)
  deriving DecidableEq

def lastInteger (m : Matched) (id : OptionId) : IntegerReading :=
  match m.last? [id] with
  | none => .absent
  | some a =>
    if Decimal.isInteger a.value then
      match Decimal.read a.value with
      | .ok n => .integer n
      | .error e => .tooLong e
    else .malformed a

end Matched
end ScriptDriver.CommandLine
