import Diagrams.Parse
import Diagrams.Proofs.Text.Trim

/-!
# What is cut from a text is part of it

**Main statement** (`Source.sublist_of_headerAndBody?`): every line after the header of a text is a
sublist of the text.

A step of scanning drops characters and adds none, so what it leaves is a sublist: shorter or as
long, and with no other characters. One lemma for each step says so.
-/

namespace Diagrams

namespace Text

variable {w cs ds rest : List Char}

/-- What is left without the end is taken from the text. -/
theorem dropTrailing_sublist (p : Char → Bool) (cs : List Char) :
    (dropTrailing p cs).Sublist cs := by
  rw [dropTrailing_eq_rdropWhile]
  exact (List.rdropWhile_prefix p cs).sublist

/-- What is left without white space at the start is taken from the text. -/
theorem trimLeft_sublist (cs : List Char) : (trimLeft cs).Sublist cs := cs.dropWhile_sublist isBlank

/-- What is left without white space at the ends is taken from the text. -/
theorem trim_sublist (cs : List Char) : (trim cs).Sublist cs :=
  (dropTrailing_sublist isBlank _).trans (trimLeft_sublist cs)

/-- What stands behind a word is taken from the text. -/
theorem sublist_of_after? (h : after? w cs = some rest) : rest.Sublist cs := by
  rw [after?_eq_some_iff.mp h]
  exact List.sublist_append_right w rest

/-- What stands before a word is taken from the text. -/
theorem sublist_of_before? (h : before? w cs = some rest) : rest.Sublist cs := by
  rw [before?_eq_some_iff.mp h]
  exact List.sublist_append_left rest w

/-- What is left without a final newline is taken from the text. -/
theorem chomp_sublist (cs : List Char) : (chomp cs).Sublist cs := by
  unfold chomp
  cases h : before? ['\n'] cs with
  | none => exact List.Sublist.refl cs
  | some r => exact sublist_of_before? h

/-- A line is taken from the text. -/
theorem sublist_of_line? (h : line? cs = some ds) : ds.Sublist cs := by
  unfold line? at h
  split at h
  · cases h
  · cases h
    exact chomp_sublist cs

/-- A name and what follows it are parts of the text. -/
theorem sublist_of_name? {run : List Char} (h : name? cs = some (run, rest)) :
    run.Sublist cs ∧ rest.Sublist cs := by
  rw [eq_append_of_name? h]
  exact ⟨List.sublist_append_left run rest, List.sublist_append_right run rest⟩

/-- What stands behind a gap is taken from the text. -/
theorem sublist_of_gap? (h : gap? cs = some rest) : rest.Sublist cs := by
  cases cs with
  | nil => cases h
  | cons c cs =>
    rw [gap?] at h
    split at h
    · cases h
      exact (trimLeft_sublist cs).cons c
    · cases h

/-- What stands behind letters is taken from the text. -/
theorem sublist_of_afterLetters? (h : afterLetters? w cs = some rest) : rest.Sublist cs := by
  induction w generalizing cs with
  | nil =>
    cases h
    exact List.Sublist.refl _
  | cons a w ih =>
    cases cs with
    | nil => cases h
    | cons c cs =>
      rw [afterLetters?] at h
      split at h
      · exact (ih h).cons c
      · cases h

/-- What is enclosed in marks is taken from the text. -/
theorem sublist_of_enclosed? {opening closing : List Char}
    (h : enclosed? opening closing cs = some ds) : ds.Sublist cs := by
  simp only [enclosed?, Option.bind_eq_bind, Option.bind_eq_some_iff] at h
  obtain ⟨line, hline, rest, hrest, body, hbody, h⟩ := h
  split at h
  · cases h
  · cases h
    exact (sublist_of_before? hbody).trans
      ((sublist_of_after? hrest).trans (sublist_of_line? hline))

/-- What stands in brackets is taken from the text. -/
theorem sublist_of_bracketed? {opening closing : List Char} {bar : Char}
    (h : bracketed? opening bar closing cs = some ds) : ds.Sublist cs := by
  simp only [bracketed?, Option.bind_eq_bind, Option.bind_eq_some_iff] at h
  obtain ⟨rest, hrest, _, -, h⟩ := h
  split at h
  · cases h
    exact (rest.takeWhile_sublist _).trans (sublist_of_after? hrest)
  · cases h

/-- A word is part of the text. -/
theorem sublist_of_mem_words {word : List Char} (h : word ∈ words cs) : word.Sublist cs := by
  fun_induction words cs generalizing word with
  | case1 => cases h
  | case2 c hc => cases h
  | case3 c hc => exact List.mem_singleton.mp h ▸ List.Sublist.refl _
  | case4 c d cs hc ih => exact (ih h).cons c
  | case5 c d cs hc hd ih =>
    rcases List.mem_cons.mp h with rfl | h
    · exact (List.nil_sublist _).cons_cons c
    · exact (ih h).cons c
  | case6 c d cs hc hd hwords ih =>
    rw [List.mem_singleton.mp h]
    exact (List.nil_sublist _).cons_cons c
  | case7 c d cs hc hd w ws hwords ih =>
    rw [hwords] at ih
    rcases List.mem_cons.mp h with rfl | h
    · exact (ih List.mem_cons_self).cons_cons c
    · exact (ih (List.mem_cons_of_mem w h)).cons c

end Text

namespace Source

open Text

/-- What stands behind an opening fence is taken from the text. -/
theorem afterOpening_sublist (cs : List Char) : (afterOpening cs).Sublist cs := by
  have hrest := (List.dropWhile_sublist fun c => c == ' ' || c == '\t').trans
    (cs.dropWhile_sublist fun c => isWord c || c == '-')
  unfold afterOpening
  generalize (cs.dropWhile fun c => isWord c || c == '-').dropWhile
    (fun c => c == ' ' || c == '\t') = rest at hrest ⊢
  dsimp only
  cases h : after? ['\n'] rest with
  | none => exact hrest
  | some r => exact (sublist_of_after? h).trans hrest

/-- What stands before a closing fence is taken from the text. -/
theorem beforeClosing_sublist (cs : List Char) : (beforeClosing cs).Sublist cs := by
  unfold beforeClosing
  split
  · rename_i body h
    exact (chomp_sublist body).trans (sublist_of_before? h)
  · exact List.Sublist.refl cs

/-- The text inside a fence is part of the text. -/
theorem stripFences_sublist (cs : List Char) : (stripFences cs).Sublist cs := by
  unfold stripFences
  split
  · rename_i rest h
    exact (beforeClosing_sublist _).trans ((afterOpening_sublist rest).trans
      ((sublist_of_after? h).trans (trim_sublist cs)))
  · exact trim_sublist cs

/-- **Main statement.** The lines after the header are parts of the text. -/
theorem sublist_of_headerAndBody? {cs header : List Char} {body : List (List Char)}
    (h : headerAndBody? (lines (stripFences cs)) = some (header, body)) :
    ∀ line ∈ body, line.Sublist cs := by
  intro line hline
  unfold headerAndBody? at h
  split at h
  · cases h
  · rename_i hdrop
    cases h
    have hmem : line ∈ lines (stripFences cs) :=
      (List.dropWhile_sublist _).subset (hdrop ▸ List.mem_cons_of_mem _ hline)
    exact (of_mem_split hmem).1.trans (stripFences_sublist cs)

end Source

end Diagrams
