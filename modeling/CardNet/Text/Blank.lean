/-!
# Blank text

The characters with the `White_Space` property, and the removal of such characters from both
ends of a text.
-/

namespace CardNet.Text

/-- Whether a character is white space in the sense of the character database. -/
def isBlank (c : Char) : Bool :=
  let code := c.toNat
  (0x09 ≤ code && code ≤ 0x0d) || code == 0x20 || code == 0x85 || code == 0xa0 ||
    code == 0x1680 || (0x2000 ≤ code && code ≤ 0x200a) || code == 0x2028 || code == 0x2029 ||
    code == 0x202f || code == 0x205f || code == 0x3000

/-- A text without the blank characters at its ends. -/
def trim (text : String) : String :=
  String.ofList ((text.toList.dropWhile isBlank).reverse.dropWhile isBlank).reverse

/-- Whether a text holds blank characters only. -/
def isBlankText (text : String) : Bool := text.toList.all isBlank

/-- Lower-case the ASCII letters of a text and keep all other characters. -/
def lowerAscii (text : String) : String := text.map Char.toLower

end CardNet.Text
