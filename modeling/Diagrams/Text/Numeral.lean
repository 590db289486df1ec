/-!
# Numbered names

* `numbered` — the names with a common start that are numbered from one.
* `append_toString_inj` — names with different numbers differ.
-/

namespace Diagrams.Text

/-- Decimal numerals of different numbers differ, since a numeral reads back. -/
theorem toString_inj {m n : Nat} (h : toString m = toString n) : m = n := by
  have hdigits : Nat.toDigits 10 m = Nat.toDigits 10 n := by
    simpa only [Nat.toString_eq_repr, Nat.toList_repr] using congrArg String.toList h
  rw [← Nat.ofDigitChars_ten_toDigits (n := m), hdigits, Nat.ofDigitChars_ten_toDigits]

/-- Names with a common start and different numbers differ. -/
theorem append_toString_inj {start : String} {m n : Nat}
    (h : start ++ toString m = start ++ toString n) : m = n :=
  toString_inj ((String.append_right_inj start).mp h)

/-- The names with the given start that are numbered from one. -/
def numbered (start : String) (n : Nat) : List String :=
  (List.range n).map fun i => start ++ toString (i + 1)

/-- One more name comes last and has the next number. -/
theorem numbered_succ (start : String) (n : Nat) :
    numbered start (n + 1) = numbered start n ++ [start ++ toString (n + 1)] := by
  simp [numbered, List.range_succ]

end Diagrams.Text
