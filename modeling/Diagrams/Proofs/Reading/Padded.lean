import Diagrams.Proofs.Text.Pieces
import Diagrams.Source.Fence

/-!
# Lines with white space at their ends

* `Padded` — what is written on a line, with white space before and after it.
* `IsBare` — a text that is a line by itself: there is no white space at its ends, and it is no
  comment.
* `contents_padded` — padded lines of bare texts are the texts themselves, once the lines are
  trimmed and those without content are left out.
-/

namespace Diagrams

open Text

/-- Something on a line, with white space around it. -/
structure Padded (α : Type) where
  /-- White space before it. -/
  before : Space
  /-- What stands on the line. -/
  inner : α
  /-- White space after it. -/
  after : Space

namespace Padded

variable {α β : Type}

/-- The characters of the line. -/
def chars (write : α → List Char) (p : Padded α) : List Char :=
  p.before.chars ++ (write p.inner ++ p.after.chars)

/-- Something else with the same white space around it. -/
def map (f : α → β) (p : Padded α) : Padded β := ⟨p.before, f p.inner, p.after⟩

/-- A text is a line by itself. -/
structure IsBare (cs : List Char) : Prop where
  /-- It is not empty. -/
  ne_nil : cs ≠ []
  /-- It does not start with white space or like a comment. -/
  head : ∀ c ∈ cs.head?, isBlank c = false ∧ c ≠ '%'
  /-- It does not end with white space. -/
  last : ∀ c ∈ cs.getLast?, isBlank c = false

/-- A text that starts with a word character and ends without white space is a line by itself. -/
theorem IsBare.of_name (n : Name) {rest : List Char}
    (h : ∀ c ∈ (n.chars ++ rest).getLast?, isBlank c = false) : IsBare (n.chars ++ rest) := by
  obtain ⟨c, cs, hcs, hc⟩ := n.head?_isWord rest
  refine ⟨by simp [hcs], ?_, h⟩
  rw [hcs]
  rintro d ⟨⟩
  refine ⟨isBlank_eq_false_of_isWord hc, ?_⟩
  rintro rfl
  exact absurd hc (by decide)

variable {write : α → List Char} {p : Padded α}

/-- What is trimmed off is the white space around the text. -/
theorem trim_chars (h : IsBare (write p.inner)) : trim (p.chars write) = write p.inner := by
  rw [chars, trim_append_left p.before.allBlank, trim_append_right p.after.allBlank]
  exact trim_eq_self (fun c hc => (h.head c hc).1) h.last

/-- A line with something on it counts, whatever white space stands around it. -/
theorem isContent_chars (h : IsBare (write p.inner)) : Source.isContent (p.chars write) = true := by
  obtain ⟨c, cs, hcs⟩ := List.exists_cons_of_ne_nil h.ne_nil
  have hc : '%' ≠ c := (h.head c (by simp [hcs])).2.symm
  simp [Source.isContent, Source.isComment, trim_chars h, hcs, startsWith, after?, hc]

/-- What counts in padded lines is what stands on them. -/
theorem contents_padded (write : α → List Char) (ps : List (Padded α))
    (h : ∀ p ∈ ps, IsBare (write p.inner)) :
    ((ps.map (chars write)).filter Source.isContent).map trim = ps.map fun p => write p.inner := by
  have hall : (ps.map (chars write)).filter Source.isContent = ps.map (chars write) := by
    rw [List.filter_eq_self]
    intro l hl
    obtain ⟨p, hp, rfl⟩ := List.mem_map.mp hl
    exact isContent_chars (h p hp)
  rw [hall, List.map_map]
  exact List.map_congr_left fun p hp => trim_chars (h p hp)

end Padded

end Diagrams
