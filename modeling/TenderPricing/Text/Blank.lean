import TenderPricing.Text.Ranges
/-!
Blank characters (white space and the four information separators, as of Unicode 14), and the
removal of blanks around a text.

`isBlank_of_isWhitespace` says that the table extends the four characters of `Char.isWhitespace`.
-/
namespace TenderPricing.Text

def blankRanges : List (Nat × Nat) := [
  (0x0009, 0x000D), (0x001C, 0x0020), (0x0085, 0x0085), (0x00A0, 0x00A0), (0x1680, 0x1680),
  (0x2000, 0x200A), (0x2028, 0x2029), (0x202F, 0x202F), (0x205F, 0x205F), (0x3000, 0x3000)]

def isBlank (c : Char) : Bool := inRanges blankRanges c.toNat

theorem isBlank_of_isWhitespace (c : Char) (h : c.isWhitespace = true) : isBlank c = true := by
  simp [Char.isWhitespace] at h
  rcases h with ((h | h) | h) | h <;> subst h <;> decide

example : isBlank 'a' = false ∧ isBlank '\u200b' = false ∧ isBlank '\u00a0' = true := by decide

/-- Drops the blanks at both ends. -/
def trimChars (s : List Char) : List Char :=
  ((s.dropWhile isBlank).reverse.dropWhile isBlank).reverse

def trim (s : String) : String := String.ofList (trimChars s.toList)

end TenderPricing.Text
