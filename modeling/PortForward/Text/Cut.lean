/-!
# Cutting a text

The three ways in which an address text is taken apart: at the first separator, at the
first pair of separators in a row, and at every separator. Beside them stands what is cut
off a message before it is shown.
-/

namespace PortForward.Text

def cut? (sep : Char) : List Char → Option (List Char × List Char)
  | [] => none
  | c :: cs =>
    if c = sep then some ([], cs) else (cut? sep cs).map fun (before, after) => (c :: before, after)

/-- The parts before and after the first two separators in a row. -/
def cutDouble? (sep : Char) : List Char → Option (List Char × List Char)
  | c :: d :: cs =>
    if c = sep ∧ d = sep then some ([], cs)
    else (cutDouble? sep (d :: cs)).map fun (before, after) => (c :: before, after)
  | _ => none

/-- The pieces between separators; a text without a separator is one piece. -/
def pieces (sep : Char) : List Char → List (List Char)
  | [] => [[]]
  | c :: cs =>
    if c = sep then [] :: pieces sep cs
    else
      match pieces sep cs with
      | [] => [[c]]
      | p :: ps => (c :: p) :: ps

/-- The text in lower case; only ASCII letters have one. -/
def lower (cs : List Char) : List Char := cs.map Char.toLower

def isBlank (c : Char) : Bool :=
  (9 ≤ c.toNat ∧ c.toNat ≤ 13) ∨ (0x2000 ≤ c.toNat ∧ c.toNat ≤ 0x200a) ∨
    c.toNat ∈ [0x20, 0x85, 0xa0, 0x1680, 0x2028, 0x2029, 0x202f, 0x205f, 0x3000]

def trimEnd (cs : List Char) : List Char := (cs.reverse.dropWhile isBlank).reverse

/-- The text up to its first empty line, without the blanks at its end. -/
def firstParagraph (text : String) : String :=
  String.ofList (trimEnd ((cutDouble? '\n' text.toList).elim text.toList Prod.fst))

end PortForward.Text
