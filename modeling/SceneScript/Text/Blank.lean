/-
  SceneScript.Text.Blank — white space in text that people wrote.

  An expression field that holds only white space counts as empty. White space is the
  Unicode property of that name, 25 characters, not only the ASCII blanks.
-/

namespace SceneScript.Text

/-- The characters with the Unicode property White_Space. -/
def isBlankChar (c : Char) : Bool :=
  let n := c.toNat
  (9 ≤ n && n ≤ 13) || n == 0x20 || n == 0x85 || n == 0xA0 || n == 0x1680 || (0x2000 ≤ n && n ≤ 0x200A)
    || n == 0x2028 || n == 0x2029 || n == 0x202F || n == 0x205F || n == 0x3000

/-- Drops white space at the end. -/
def trimEnd (cs : List Char) : List Char := (cs.reverse.dropWhile isBlankChar).reverse

/-- The text without the white space at its two ends. -/
def trim (s : String) : String := String.ofList (trimEnd (s.toList.dropWhile isBlankChar))

/-- Holds nothing but white space. -/
def isBlank (s : String) : Bool := s.toList.all isBlankChar

end SceneScript.Text
