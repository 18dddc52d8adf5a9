import FlowLint.Text.Blank

/-! Cutting text at separators and looking for one text inside another. `pieces` keeps empty pieces;
`words` keeps the others. -/

namespace FlowLint.Text

/-- The pieces of a text between the characters that satisfy `sep`. -/
def pieces (sep : Char → Bool) : List Char → List (List Char)
  | [] => [[]]
  | c :: s =>
    if sep c then [] :: pieces sep s
    else match pieces sep s with
      | [] => [[c]]
      | p :: ps => (c :: p) :: ps

theorem pieces_ne_nil (sep : Char → Bool) (s : List Char) : pieces sep s ≠ [] := by
  cases s with
  | nil => simp [pieces]
  | cons c s =>
    unfold pieces
    split
    · simp
    · split <;> simp

/-- The words of a text: its longest runs without a blank. -/
def words (s : List Char) : List (List Char) := (pieces isBlank s).filter (· != [])

/-- The texts of `parts` with `sep` between neighbours. -/
def join (sep : String) : List String → String
  | [] => ""
  | [s] => s
  | s :: rest => s ++ sep ++ join sep rest

def occursIn (part : List Char) : List Char → Bool
  | [] => part.isEmpty
  | c :: s => part.isPrefixOf (c :: s) || occursIn part s

def contains (s part : String) : Bool := occursIn part.toList s.toList

def startsWith (s start : String) : Bool := start.toList.isPrefixOf s.toList

/-- Each occurrence of `old`, found from the left and without overlap, becomes `new`. The first
argument counts characters of an occurrence that are still to be passed over. -/
def replaceFrom (old new : List Char) : Nat → List Char → List Char
  | _, [] => []
  | k + 1, _ :: s => replaceFrom old new k s
  | 0, c :: s =>
    if old.isPrefixOf (c :: s) then new ++ replaceFrom old new (old.length - 1) s
    else c :: replaceFrom old new 0 s

/-- Each occurrence of the non-empty text `old`, from the left, becomes `new`. -/
def replaceAll (s old new : String) : String :=
  .ofList (replaceFrom old.toList new.toList 0 s.toList)

def beforeFirst (c : Char) (s : List Char) : List Char := s.takeWhile (· != c)

def afterLast (c : Char) (s : List Char) : List Char := (s.reverse.takeWhile (· != c)).reverse

end FlowLint.Text
