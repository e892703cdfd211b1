import ScriptDriver.Text.Basic
/-!
# Blank — white space

The characters that separate words of running text: the ASCII blanks, the four information separators, and the Unicode
spaces and line ends.
-/
namespace ScriptDriver

/-- Whether a glyph is white space. -/
def Glyph.isBlank : Glyph → Bool
  | .raw _ => false
  | .char c =>
    let n := c.toNat
    (0x09 ≤ n && n ≤ 0x0D) || (0x1C ≤ n && n ≤ 0x20) || n = 0x85 || n = 0xA0 || n = 0x1680 ||
      (0x2000 ≤ n && n ≤ 0x200A) || n = 0x2028 || n = 0x2029 || n = 0x202F || n = 0x205F || n = 0x3000

def Text.strip (t : Text) : Text := t.trim Glyph.isBlank

/-- The words of a text: what stands between white space. -/
def Text.words (t : Text) : List Text := t.fields Glyph.isBlank

end ScriptDriver
