import ScriptDriver.Text.Basic
/-!
# Markup — literal text on a console that knows tags

Consoles read `[name]` as a tag.  Text that is to be shown as it is gets escaped first, and then shows as it is with two
exceptions: a backslash before a bracket that opens no tag is dropped, and a text that ends in exactly one backslash
shows two.
-/
namespace ScriptDriver.Console

/-- Whether a bracket followed by `t` opens a tag: a small letter, `#`, `/` or `@`, and a closing bracket before the
next opening one. -/
def opensTag : Text → Bool
  | [] => false
  | g :: rest =>
    g.isAscii (fun c => c.isLower || c = '#' || c = '/' || c = '@') &&
      (rest.find? fun h => h.is '[' || h.is ']') = some (.char ']')

/-- The text without the backslashes that stand before a bracket that opens no tag. -/
def dropLoneEscapes : Text → Text
  | [] => []
  | [g] => [g]
  | g :: h :: rest =>
    if g.is '\\' && h.is '[' && !opensTag rest then dropLoneEscapes (h :: rest)
    else g :: dropLoneEscapes (h :: rest)

def endsInOneBackslash (t : Text) : Bool :=
  match t.reverse with
  | g :: h :: _ => g.is '\\' && !h.is '\\'
  | [g] => g.is '\\'
  | [] => false

/-- What a console shows of a text that was escaped. -/
def literal (t : Text) : Text :=
  dropLoneEscapes t ++ (if endsInOneBackslash t then [.char '\\'] else [])

end ScriptDriver.Console
