import TapeMachine.Text.CodePoint

/-!
Two classes of blanks. `isWhite` is the white space of the character database; `isBlank` adds the
four separators of the control block, U+001C to U+001F.
-/
namespace TapeMachine

namespace CodePoint

/-- White space: what is trimmed around an integer in a settings value. -/
def isWhite (c : CodePoint) : Bool :=
  (9 ≤ c.val && c.val ≤ 13) || c.val == 0x20 || c.val == 0x85 || c.val == 0xA0 || c.val == 0x1680 ||
  (0x2000 ≤ c.val && c.val ≤ 0x200A) || c.val == 0x2028 || c.val == 0x2029 || c.val == 0x202F ||
  c.val == 0x205F || c.val == 0x3000

/-- Blanks: what is trimmed around a word. -/
def isBlank (c : CodePoint) : Bool := c.isWhite || (0x1C ≤ c.val && c.val ≤ 0x1F)

end CodePoint

def isBlankChar (c : Char) : Bool := (CodePoint.ofChar c).isBlank

namespace Text

/-- The text without the blanks at its ends. -/
def strip (t : Text) : Text := t.trim CodePoint.isBlank

end Text

def stripString (s : String) : String :=
  String.ofList ((s.toList.dropWhile isBlankChar).reverse.dropWhile isBlankChar).reverse

end TapeMachine
