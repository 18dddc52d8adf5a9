/-! The lines of a text. A line ends at a line feed, a carriage return, the two together, a vertical
tab, a form feed, U+001C to U+001E, U+0085, U+2028 or U+2029; a text that ends with one of them has
no further, empty line. -/

namespace FlowLint.Text

def endsLine (c : Char) : Bool :=
  let n := c.toNat
  (10 ≤ n && n ≤ 13) || (0x1C ≤ n && n ≤ 0x1E) || n == 0x85 || n == 0x2028 || n == 0x2029

def lineList : List Char → List (List Char)
  | [] => []
  | '\r' :: '\n' :: s => [] :: lineList s
  | c :: s =>
    if endsLine c then [] :: lineList s
    else match lineList s with
      | [] => [[c]]
      | l :: ls => (c :: l) :: ls

def lines (s : String) : List String := (lineList s.toList).map .ofList

/-- A carriage return, alone or before a line feed, becomes a line feed. -/
def unifyBreaks : List Char → List Char
  | [] => []
  | '\r' :: '\n' :: s => '\n' :: unifyBreaks s
  | c :: s => (if c == '\r' then '\n' else c) :: unifyBreaks s

example : lines "a\r\n\nb\x0bc" = ["a", "", "b", "c"] := by decide +kernel
example : lines "a\n" = ["a"] ∧ lines "" = [] ∧ lines "\n" = [""] := by decide +kernel

end FlowLint.Text
