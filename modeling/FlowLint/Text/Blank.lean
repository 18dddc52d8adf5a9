/-! Blank characters, trimming and words. A blank is a character that trimming removes and that
separates words. `dropBlanks` and `trimChars` work on lists of characters, and the functions on
`String` go through them. -/

namespace FlowLint.Text

/-- The white space of Unicode, together with the four information separators U+001C to U+001F. -/
def isBlank (c : Char) : Bool :=
  let n := c.toNat
  if n < 0x80 then (9 ≤ n && n ≤ 13) || (0x1C ≤ n && n ≤ 0x20)
  else n == 0x85 || n == 0xA0 || n == 0x1680 || (0x2000 ≤ n && n ≤ 0x200A) || n == 0x2028 ||
    n == 0x2029 || n == 0x202F || n == 0x205F || n == 0x3000

/-- The text after its leading blanks. -/
def dropBlanks (s : List Char) : List Char := s.dropWhile isBlank

/-- The text before its trailing blanks. -/
def dropEndBlanks (s : List Char) : List Char := (s.reverse.dropWhile isBlank).reverse

/-- The text between its leading and its trailing blanks. -/
def trimChars (s : List Char) : List Char := dropEndBlanks (dropBlanks s)

def trim (s : String) : String := .ofList (trimChars s.toList)

/-- Every character is blank; so for the empty text. -/
def allBlank (s : String) : Bool := s.toList.all isBlank

@[simp] theorem dropBlanks_nil : dropBlanks [] = [] := rfl

end FlowLint.Text
