import TacBench.Text

/-! White space and the words between it. The class is that of Unicode, with the four separator
controls U+001C to U+001F; number readers use the smaller class that leaves those out. -/
namespace TacBench.Text

def isBlank (c : Char) : Bool :=
  let n := c.toNat
  (9 ≤ n && n ≤ 13) || (28 ≤ n && n ≤ 32) || n == 0x85 || n == 0xA0 || n == 0x1680 ||
    (0x2000 ≤ n && n ≤ 0x200A) || n == 0x2028 || n == 0x2029 || n == 0x202F || n == 0x205F ||
    n == 0x3000

/-- Blanks that may surround a number. -/
def isNumberBlank (c : Char) : Bool :=
  isBlank c && !(28 ≤ c.toNat && c.toNat ≤ 31)

/-- Removes the elements of a class from both ends. -/
def stripBy {α : Type} (p : α → Bool) (s : List α) : List α :=
  ((s.dropWhile p).reverse.dropWhile p).reverse

def strip (s : List Char) : List Char := stripBy isBlank s

/-- The text without the blanks around it. -/
def trim (s : Text) : Text := stripBy (isBlank ·.seen) s

/-- The maximal runs of characters that are not blank, from left to right. -/
def fields (s : List Char) : List (List Char) :=
  (s.splitOnP isBlank).filter (!·.isEmpty)

end TacBench.Text
