import Interpose.Word

/-!
# Blank characters

The characters with the White_Space property, and splitting and trimming by them.
-/

namespace Interpose.Text

def isBlank (c : Char) : Bool :=
  let n := c.toNat
  (9 ≤ n && n ≤ 13) || n == 0x20 || n == 0x85 || n == 0xA0 || n == 0x1680 ||
    (0x2000 ≤ n && n ≤ 0x200A) || n == 0x2028 || n == 0x2029 || n == 0x202F || n == 0x205F ||
    n == 0x3000

/-- The maximal runs of characters outside `sep`; runs may be empty. -/
def splitOnP (sep : Char → Bool) : List Char → List (List Char)
  | [] => [[]]
  | c :: rest =>
    match splitOnP sep rest with
    | [] => [[c]]
    | run :: runs => if sep c then [] :: run :: runs else (c :: run) :: runs

def words (text : List Char) : List (List Char) :=
  (splitOnP isBlank text).filter fun w => !w.isEmpty

def trim (text : List Char) : List Char :=
  ((text.dropWhile isBlank).reverse.dropWhile isBlank).reverse

/-- Removes every copy of `lead` that opens the text. -/
def dropLeads (a b : Char) : List Char → List Char
  | x :: y :: rest => if x = a ∧ y = b then dropLeads a b rest else x :: y :: rest
  | text => text

def sameLetters (a b : String) : Bool := a.map Char.toLower == b.map Char.toLower

end Interpose.Text
