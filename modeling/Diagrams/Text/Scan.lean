import Diagrams.Text.Lines
import Diagrams.Text.Word

/-!
# Scanning a line

The steps from which the recognisers of lines are put together. A step takes text from the start
and gives what it took and the rest, or refuses.

* `name?` — a run of word characters, as long as it can be.
* `gap?` — white space, at least one character.
* `enclosed?`, `bracketed?` — the text between an opening and a closing mark.
* `sameLetter`, `afterLetters?` — a keyword in letters of either case.
* `atEnd` — nothing is left but one newline at most.
-/

namespace Diagrams.Text

/-- The run of word characters at the start, and the rest. A run is never empty. -/
def name? (cs : List Char) : Option (List Char × List Char) :=
  match cs.takeWhile isWord with
  | [] => none
  | c :: run => some (c :: run, cs.dropWhile isWord)

/-- What `name?` splits off and what it leaves make up the text. -/
theorem eq_append_of_name? {cs run rest : List Char} (h : name? cs = some (run, rest)) :
    cs = run ++ rest := by
  unfold name? at h
  split at h
  · simp at h
  · rename_i c run' hrun
    simp only [Option.some.injEq, Prod.mk.injEq] at h
    obtain ⟨rfl, rfl⟩ := h
    rw [← hrun, List.takeWhile_append_dropWhile]

/-- A run is not empty. -/
theorem ne_nil_of_name? {cs run rest : List Char} (h : name? cs = some (run, rest)) :
    run ≠ [] := by
  unfold name? at h
  split at h
  · simp at h
  · simp only [Option.some.injEq, Prod.mk.injEq] at h
    obtain ⟨rfl, rfl⟩ := h
    simp

/-- The rest after white space at the start, of which there must be some. -/
def gap? : List Char → Option (List Char)
  | [] => none
  | c :: cs => if isBlank c then some (trimLeft cs) else none

/-- Nothing is left, or one newline. -/
def atEnd (cs : List Char) : Bool := cs == [] || cs == ['\n']

/-- The text between `opening` and `closing`, which must be the start and the end of the line. The
text is not empty; it may hold the marks once more. -/
def enclosed? (opening closing cs : List Char) : Option (List Char) := do
  let body ← before? closing (← after? opening (← line? cs))
  if body = [] then none else some body

/-- The text between `opening` and the first `bar` after it, when `bar` and `closing` follow and
nothing else but one newline. The text is not empty. -/
def bracketed? (opening : List Char) (bar : Char) (closing cs : List Char) :
    Option (List Char) := do
  let rest ← after? opening cs
  let body := rest.takeWhile (· != bar)
  let rest ← after? (bar :: closing) (rest.dropWhile (· != bar))
  if body ≠ [] ∧ atEnd rest then some body else none

/-- Whether `c` counts as the small letter `letter` when case is ignored: besides the two ASCII
forms, the dotted capital and the dotless small i count as `i`, and the long s counts as `s`. -/
def sameLetter (letter c : Char) : Bool :=
  c.toLower == letter ||
    (letter == 'i' && (c == '\u0130' || c == '\u0131')) || (letter == 's' && c == '\u017F')

/-- The text after the keyword, case being ignored. -/
def afterLetters? : List Char → List Char → Option (List Char)
  | [], cs => some cs
  | _ :: _, [] => none
  | w :: ws, c :: cs => if sameLetter w c then afterLetters? ws cs else none

/-- Text with ASCII capitals made small, and the dotted capital i made a small i followed by the
combining dot. Other letters keep their case: no keyword is written with them, and each is a word
character in either case. -/
def lower (cs : List Char) : List Char :=
  cs.flatMap fun c => if c == '\u0130' then ['i', '\u0307'] else [c.toLower]

end Diagrams.Text
