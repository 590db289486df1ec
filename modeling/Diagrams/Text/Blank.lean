/-!
# White space

Which characters count as white space, and the operations on text that depend on it.

* `isBlank` — the class: the characters of the property `White_Space` and the four separators
  `U+001C`–`U+001F`.
* `trimLeft`, `trimRight`, `trim` — white space dropped at one end, the other, or both.
* `words` — the maximal runs of other characters.

One class serves trimming, the gaps between tokens and the splitting into words, so a line that is
blank for one of them is blank for all.
-/

namespace Diagrams.Text

/-- White space: `U+0009`–`U+000D`, `U+001C`–`U+0020`, `U+0085`, `U+00A0` and the spaces and
separators beyond Latin-1. -/
def isBlank (c : Char) : Bool :=
  let n := c.toNat
  (9 ≤ n && n ≤ 13) || (28 ≤ n && n ≤ 32) || n == 0x85 || n == 0xA0 || n == 0x1680 ||
    (0x2000 ≤ n && n ≤ 0x200A) || n == 0x2028 || n == 0x2029 || n == 0x202F || n == 0x205F ||
    n == 0x3000

/-- Every character that is white space in the narrow, Latin sense is blank. -/
theorem isBlank_of_isWhitespace {c : Char} (h : c.isWhitespace = true) : isBlank c = true := by
  simp only [Char.isWhitespace, Bool.or_eq_true, decide_eq_true_eq] at h
  rcases h with ((h | h) | h) | h <;> subst h <;> decide

/-- `cs` without the longest run at its end of characters that satisfy `p`. -/
def dropTrailing (p : Char → Bool) : List Char → List Char
  | [] => []
  | c :: cs =>
    match dropTrailing p cs with
    | [] => if p c then [] else [c]
    | d :: ds => c :: d :: ds

/-- Text without the white space at its start. -/
def trimLeft (cs : List Char) : List Char := cs.dropWhile isBlank

/-- Text without the white space at its end. -/
def trimRight (cs : List Char) : List Char := dropTrailing isBlank cs

/-- Text without the white space at either end. -/
def trim (cs : List Char) : List Char := trimRight (trimLeft cs)

/-- The maximal runs of characters other than white space, in order. -/
def words : List Char → List (List Char)
  | [] => []
  | [c] => if isBlank c then [] else [[c]]
  | c :: d :: cs =>
    if isBlank c then words (d :: cs)
    else if isBlank d then [c] :: words (d :: cs)
    else
      match words (d :: cs) with
      | [] => [[c]]
      | w :: ws => (c :: w) :: ws

end Diagrams.Text
