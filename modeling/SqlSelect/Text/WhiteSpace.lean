import SqlSelect.Text.Split

/-!
# White space

* `Chars.isWhiteSpace`: the 25 characters that have the Unicode property `White_Space`;
* `trim`: the text without the white space at its two ends;
* `words`: the longest pieces without white space;
* `Text.items`: the trimmed, non-blank pieces of a list written with separators.
-/

namespace SqlSelect

namespace Chars

/-- Closed ranges of code points, ascending and apart. -/
def whiteSpaceRanges : List (Nat × Nat) :=
  [(0x09, 0x0D), (0x20, 0x20), (0x85, 0x85), (0xA0, 0xA0), (0x1680, 0x1680), (0x2000, 0x200A),
   (0x2028, 0x2029), (0x202F, 0x202F), (0x205F, 0x205F), (0x3000, 0x3000)]

/-- Does the character have the Unicode property `White_Space`? -/
def isWhiteSpace (c : Char) : Bool :=
  whiteSpaceRanges.any fun (lo, hi) => lo ≤ c.toNat && c.toNat ≤ hi

/-- The text without white space at its end. -/
def trimEnd (cs : List Char) : List Char := (cs.reverse.dropWhile isWhiteSpace).reverse

/-- The text without white space at either end. -/
def trim (cs : List Char) : List Char := trimEnd (cs.dropWhile isWhiteSpace)

/-- The longest pieces without white space. -/
def words (cs : List Char) : List (List Char) := (splitWhere isWhiteSpace cs).filter (!·.isEmpty)

/-- A trimmed text does not end in white space. -/
theorem getLast?_trimEnd (cs : List Char) :
    ∀ c ∈ (trimEnd cs).getLast?, isWhiteSpace c = false := by
  intro c hc
  rw [trimEnd, List.getLast?_reverse] at hc
  have := List.head?_dropWhile_not isWhiteSpace cs.reverse
  cases h : (cs.reverse.dropWhile isWhiteSpace).head? <;> simp_all

end Chars

namespace Text

/-- Does the text hold white space? -/
def hasWhiteSpace (s : String) : Bool := s.toList.any Chars.isWhiteSpace

/-- The text without white space at either end. -/
def trim (s : String) : String := String.ofList (Chars.trim s.toList)

/-- The longest pieces without white space. -/
def words (s : String) : List String := (Chars.words s.toList).map String.ofList

/-- The trimmed pieces between the separators, without the blank ones. -/
def items (sep : Char) (s : String) : List String :=
  ((splitOn sep s).map trim).filter (· ≠ "")

/-- Is there nothing but white space? -/
def isBlank (s : String) : Bool := trim s = ""

@[simp] theorem toList_trim (s : String) : (trim s).toList = Chars.trim s.toList := by
  simp [trim]

end Text

end SqlSelect
