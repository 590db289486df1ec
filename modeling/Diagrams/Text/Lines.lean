import Diagrams.Text.Blank

/-!
# Lines

* `split`, `join` — text cut at every mark, and put together again.
* `lines`, `unlines` — the same with newlines as marks.
* `readNewlines` — the three ways of ending a line read as one.
* `occurrences` — how often a pattern occurs without overlap.
* `chomp` — text without one newline at its end; `line?` refuses a newline anywhere else.
-/

namespace Diagrams.Text

/-- The pieces between the marks. There is always one more piece than there are marks. -/
def split (mark : Char) : List Char → List (List Char)
  | [] => [[]]
  | c :: cs =>
    if c = mark then [] :: split mark cs
    else
      match split mark cs with
      | [] => [[c]]
      | l :: ls => (c :: l) :: ls

/-- The pieces with a mark between each two. -/
def join (mark : Char) : List (List Char) → List Char
  | [] => []
  | [l] => l
  | l :: ls => l ++ mark :: join mark ls

/-- Cutting leaves at least one piece. -/
theorem split_ne_nil (mark : Char) (cs : List Char) : split mark cs ≠ [] := by
  cases cs with
  | nil => simp [split]
  | cons c cs =>
    unfold split
    split
    · simp
    · split <;> simp

/-- Cutting loses nothing. -/
theorem join_split (mark : Char) (cs : List Char) : join mark (split mark cs) = cs := by
  induction cs with
  | nil => rfl
  | cons c cs ih =>
    unfold split
    split
    · rename_i h
      cases hl : Text.split mark cs with
      | nil => exact absurd hl (split_ne_nil mark cs)
      | cons l ls => rw [hl] at ih; simp [join, ih, h]
    · split
      · rename_i hl
        exact absurd hl (split_ne_nil mark cs)
      · rename_i l ls hl
        rw [hl] at ih
        cases ls with
        | nil => simpa [join] using ih
        | cons m ms => simpa [join] using ih

/-- The pieces between newlines. -/
def lines (cs : List Char) : List (List Char) := split '\n' cs

/-- The pieces with a newline between each two. -/
def unlines (ls : List (List Char)) : List Char := join '\n' ls

/-- Cutting into lines leaves at least one. -/
theorem lines_ne_nil (cs : List Char) : lines cs ≠ [] := split_ne_nil '\n' cs

/-- Cutting into lines loses nothing. -/
theorem unlines_lines (cs : List Char) : unlines (lines cs) = cs := join_split '\n' cs

/-- A carriage return, alone or before a newline, ends a line just as a newline does. -/
def readNewlines : List Char → List Char
  | [] => []
  | '\r' :: '\n' :: cs => '\n' :: readNewlines cs
  | '\r' :: cs => '\n' :: readNewlines cs
  | c :: cs => c :: readNewlines cs

/-- Reading line ends makes a text no longer. -/
theorem length_readNewlines_le (cs : List Char) : (readNewlines cs).length ≤ cs.length := by
  fun_induction readNewlines cs with
  | case1 => exact Nat.le_refl 0
  | case2 cs ih => exact Nat.succ_le_succ (Nat.le_succ_of_le ih)
  | case3 cs _ ih => exact Nat.succ_le_succ ih
  | case4 c cs _ _ ih => exact Nat.succ_le_succ ih

/-- Text without carriage returns is read as it is. -/
theorem readNewlines_of_notMem {cs : List Char} (h : '\r' ∉ cs) : readNewlines cs = cs := by
  induction cs with
  | nil => rfl
  | cons c cs ih =>
    rw [List.mem_cons, not_or] at h
    rw [readNewlines.eq_def]
    split
    · contradiction
    · rename_i heq
      cases heq
      exact absurd rfl h.1
    · rename_i heq
      cases heq
      exact absurd rfl h.1
    · rename_i heq
      cases heq
      rw [ih h.2]

/-- The text after `w`, when the text starts with `w`. -/
def after? : List Char → List Char → Option (List Char)
  | [], cs => some cs
  | _ :: _, [] => none
  | w :: ws, c :: cs => if w = c then after? ws cs else none

/-- The text before `w`, when the text ends with `w`. -/
def before? (w cs : List Char) : Option (List Char) :=
  (after? w.reverse cs.reverse).map List.reverse

/-- What `after?` finds is the rest. -/
theorem after?_eq_some_iff {w cs r : List Char} : after? w cs = some r ↔ cs = w ++ r := by
  induction w generalizing cs with
  | nil => simp [after?, eq_comm]
  | cons a w ih =>
    cases cs with
    | nil => simp [after?]
    | cons c cs =>
      by_cases h : a = c
      · simp [after?, h, ih]
      · simp [after?, h, Ne.symm h]

/-- What `before?` finds is the first part. -/
theorem before?_eq_some_iff {w cs r : List Char} : before? w cs = some r ↔ cs = r ++ w := by
  simp only [before?, Option.map_eq_some_iff, after?_eq_some_iff]
  constructor
  · rintro ⟨a, ha, rfl⟩
    have := congrArg List.reverse ha
    simpa using this
  · rintro rfl
    exact ⟨r.reverse, by simp, by simp⟩

/-- Whether the text starts with `w`. -/
def startsWith (w cs : List Char) : Bool := (after? w cs).isSome

/-- Whether `w` occurs in the text. -/
def contains (w : List Char) : List Char → Bool
  | [] => startsWith w []
  | c :: cs => startsWith w (c :: cs) || contains w cs

/-- How often a non-empty `w` occurs in the text, each occurrence starting after the end of the
one before. -/
def occurrences (w cs : List Char) : Nat :=
  match cs with
  | [] => 0
  | c :: cs =>
    match after? w (c :: cs) with
    | some r => if r.length ≤ cs.length then occurrences w r + 1 else 0
    | none => occurrences w cs
termination_by cs.length
decreasing_by all_goals grind

/-- Text without one newline at its end. -/
def chomp (cs : List Char) : List Char := (before? ['\n'] cs).getD cs

/-- Text without one newline at its end, when it holds no other newline. -/
def line? (cs : List Char) : Option (List Char) :=
  if '\n' ∈ chomp cs then none else some (chomp cs)

end Diagrams.Text
