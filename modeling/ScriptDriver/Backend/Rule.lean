import ScriptDriver.Text.Basic
/-!
# Rule — dependency rules

A dependency file holds one rule: the targets, a colon, and what they are made from, with a backslash before every space
in a path.
-/
namespace ScriptDriver.Backend

def escapeSpaces (path : Text) : Text := path.flatMap fun g => if g.is ' ' then "\\ " else [g]

def rulePaths (paths : List Text) : Text := Text.joinWith " " (paths.map escapeSpaces)

/-- The rule that targets are made from prerequisites. -/
def rule (targets prerequisites : List Text) : Text := rulePaths targets ++ ": " ++ rulePaths prerequisites ++ "\n"

end ScriptDriver.Backend
