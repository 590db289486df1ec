import Diagrams.Check.Review
import Diagrams.Proofs.Reading.Header
import Mathlib.Data.Int.Order.Basic
import Mathlib.Data.List.Pairwise

/-!
# Reviews and readings

A review looks for the header among the lines by itself, and so does reading. The two agree:

* `header_cases` — the review's header is the line that reading takes for the header.
* `exists_noKind_iff` — the review objects to the kind exactly when the header names none.
* `pairwise_findings`, `line_of_mem_findings` — findings come in the order of the lines, each at a
  line that counts.

**Main statement** (`review_reports`): a review has the counts and the kind of what is read, objects
to the kind exactly when reading does not know it, and lists its findings in the order of the lines.
-/

namespace Diagrams.Check

open Text Source

variable {lines : List (List Char)}

/-! ### The lines that count -/

/-- The number, counted from one, is that of a line that counts. -/
def IsContentLine (lines : List (List Char)) (number : Int) : Prop :=
  ∃ i l, number = (i + 1 : Nat) ∧ lines[i]? = some l ∧ isContent l = true

/-- The number of the first line, when no line counts. -/
def IsOnlyLine (lines : List (List Char)) (number : Int) : Prop :=
  (∀ l ∈ lines, isContent l = false) ∧ number = 1

/-- Apart from their numbers the lines that count are the ones that are kept, trimmed. -/
theorem map_snd_contentLines (lines : List (List Char)) :
    (contentLines lines).map (·.2) = (lines.filter isContent).map trim := by
  have hkept : (lines.zipIdx.filter fun l => isContent l.1).map (·.1) = lines.filter isContent := by
    conv_rhs => rw [← List.zipIdx_map_fst 0 lines, List.filter_map]
    rfl
  rw [contentLines, List.map_map, ← hkept, List.map_map]
  rfl

/-- They come with growing numbers. -/
theorem pairwise_contentLines (lines : List (List Char)) :
    (contentLines lines).Pairwise fun l m => l.1 < m.1 := by
  have hgrow : lines.zipIdx.Pairwise fun l m => l.2 < m.2 := by
    apply List.pairwise_map.mp
    rw [List.zipIdx_map_snd]
    exact List.pairwise_lt_range'
  rw [contentLines, List.pairwise_map]
  exact (hgrow.filter _).imp fun h => Nat.succ_lt_succ h

/-- The lines that are looked through count. -/
theorem isContentLine_of_mem {l : Nat × List Char} (h : l ∈ contentLines lines) :
    IsContentLine lines l.1 := by
  obtain ⟨⟨raw, i⟩, hraw, rfl⟩ := List.mem_map.mp h
  obtain ⟨hmem, hcontent⟩ := List.mem_filter.mp hraw
  exact ⟨i, raw, rfl, List.mem_zipIdx_iff_getElem?.mp hmem, hcontent⟩

/-- The first line that counts for a review is the line that reading takes for the header. -/
theorem header_cases (lines : List (List Char)) :
    (headerAndBody? lines = none ∧ contentLines lines = []) ∨
      ∃ header body n rest, headerAndBody? lines = some (header, body) ∧
        contentLines lines = (n, trim header) :: rest := by
  have hfirst : ((contentLines lines).map (·.2)).head? =
      (headerAndBody? lines).map fun parts => trim parts.1 := by
    rw [map_snd_contentLines, List.head?_map, List.head?_filter, List.find?_eq_head?_dropWhile_not,
      headerAndBody?]
    cases lines.dropWhile fun l => !isContent l <;> rfl
  cases hparts : headerAndBody? lines with
  | none =>
    rw [hparts, Option.map_none, List.head?_eq_none_iff, List.map_eq_nil_iff] at hfirst
    exact .inl ⟨rfl, hfirst⟩
  | some parts =>
    rw [hparts, Option.map_some, List.head?_map] at hfirst
    obtain ⟨⟨n, header⟩, hhead, rfl⟩ := Option.map_eq_some_iff.mp hfirst
    obtain ⟨rest, hrest⟩ := List.head?_eq_some_iff.mp hhead
    exact .inr ⟨parts.1, parts.2, n, rest, rfl, hrest⟩

/-! ### Lists of findings -/

/-- What is found at the header, and then line by line. -/
def findings (lines : List (List Char)) (first : Nat → List Finding)
    (found : Nat × List Char → List Finding) : List Finding :=
  first (headerOf (contentLines lines)).1 ++ (contentLines lines).flatMap found

section Findings

variable {first : Nat → List Finding} {found : Nat × List Char → List Finding}

/-- The header comes before every line that counts. -/
theorem headerOf_le {l : Nat × List Char} (h : l ∈ contentLines lines) :
    (headerOf (contentLines lines)).1 ≤ l.1 := by
  have hgrow := pairwise_contentLines lines
  rcases header_cases lines with ⟨-, hnone⟩ | ⟨header, -, n, rest, -, hrest⟩
  · rw [hnone] at h
    exact absurd h List.not_mem_nil
  · rw [hrest] at h hgrow ⊢
    rcases List.mem_cons.mp h with rfl | hl
    · exact Nat.le_refl _
    · exact Nat.le_of_lt (List.rel_of_pairwise_cons hgrow hl)

/-- Findings that stand at their lines come in the order of the lines. -/
theorem pairwise_findings (hfirst : ∀ n, ∀ f ∈ first n, f.line = n)
    (hfound : ∀ l, ∀ f ∈ found l, f.line = l.1) :
    ((findings lines first found).map Finding.line).Pairwise (· ≤ ·) := by
  rw [List.pairwise_map]
  apply List.pairwise_append.mpr
  refine ⟨?_, ?_, ?_⟩
  · apply List.pairwise_of_forall_mem_list
    intro f hf g hg
    exact (hfirst _ f hf).trans_le (hfirst _ g hg).ge
  · apply List.pairwise_flatMap.mpr
    constructor
    · intro l _
      apply List.pairwise_of_forall_mem_list
      intro f hf g hg
      exact (hfound l f hf).trans_le (hfound l g hg).ge
    · apply (pairwise_contentLines lines).imp
      intro l m hlm f hf g hg
      rw [hfound l f hf, hfound m g hg]
      exact_mod_cast Nat.le_of_lt hlm
  · intro f hf g hg
    obtain ⟨l, hl, hgl⟩ := List.mem_flatMap.mp hg
    rw [hfirst _ f hf, hfound l g hgl]
    exact_mod_cast headerOf_le hl

/-- Each stands at a line that counts, or at the first line when none does. -/
theorem line_of_mem_findings (hfirst : ∀ n, ∀ f ∈ first n, f.line = n)
    (hfound : ∀ l, ∀ f ∈ found l, f.line = l.1) {f : Finding}
    (h : f ∈ findings lines first found) :
    IsContentLine lines f.line ∨ IsOnlyLine lines f.line := by
  rcases List.mem_append.mp h with hhead | hline
  · rw [hfirst _ f hhead]
    rcases header_cases lines with ⟨hnone, hnil⟩ | ⟨header, -, n, rest, -, hrest⟩
    · rw [hnil]
      exact .inr ⟨headerAndBody?_eq_none.mp hnone, rfl⟩
    · apply Or.inl
      apply isContentLine_of_mem
      rw [hrest]
      exact List.mem_cons_self
  · obtain ⟨l, hl, hf⟩ := List.mem_flatMap.mp hline
    rw [hfound l f hf]
    exact .inl (isContentLine_of_mem hl)

end Findings

/-! ### Issues and remarks -/

/-- Issues are found on the line at which they are put. -/
theorem line_of_mem_issues {n : Nat} {issues : List Issue} {f : Finding}
    (h : f ∈ issues.map (Issue.at n)) : f.line = n := by
  obtain ⟨i, -, rfl⟩ := List.mem_map.mp h
  cases i <;> rfl

/-- Remarks are made on the line at which they are put. -/
theorem line_of_mem_remarks {n : Nat} {remarks : List Remark} {f : Finding}
    (h : f ∈ remarks.map (Remark.at n)) : f.line = n := by
  obtain ⟨r, -, rfl⟩ := List.mem_map.mp h
  cases r <;> rfl

/-- The words of an objection to the kind of diagram. -/
def noKindText : String := "Missing or invalid diagram type declaration"

/-- No other issue is told in these words. -/
theorem issue_at_eq_noKindText_iff {n : Nat} {i : Issue} :
    (i.at n).issue = noKindText ↔ i = .noKind := by
  cases i with
  | noKind => exact iff_of_true rfl rfl
  | chainedArrows =>
    refine iff_of_false (fun h => ?_) nofun
    have htexts : "Chained arrows detected" = noKindText := h
    exact absurd htexts (by decide)
  | invalidName name =>
    refine iff_of_false (fun h => ?_) nofun
    have hchars := congrArg (List.head? ∘ String.toList) h
    simp [Issue.at, noKindText] at hchars

/-- No line after the header is objected to for the kind. -/
theorem noKind_notMem_lineIssues (checkNames : Bool) (line : List Char) :
    Issue.noKind ∉ lineIssues checkNames line := by
  intro h
  rcases List.mem_append.mp h with hchained | hname
  · split at hchained
    · cases List.mem_singleton.mp hchained
    · exact absurd hchained List.not_mem_nil
  · split at hname
    · split at hname
      · exact absurd hname List.not_mem_nil
      · cases List.mem_singleton.mp hname
    · exact absurd hname List.not_mem_nil

/-- The kind is objected to exactly when the header names none. -/
theorem exists_noKind_iff (lines : List (List Char)) :
    (∃ f ∈ issuesOf lines, f.issue = noKindText) ↔
      Declared.ofLine? (headerOf (contentLines lines)).2 = none := by
  constructor
  · rintro ⟨f, hf, htext⟩
    rcases List.mem_append.mp hf with hhead | hline
    · obtain ⟨i, hi, rfl⟩ := List.mem_map.mp hhead
      rw [headerIssues] at hi
      split at hi
      · assumption
      · exact absurd hi List.not_mem_nil
    · obtain ⟨l, -, hfound⟩ := List.mem_flatMap.mp hline
      obtain ⟨i, hi, rfl⟩ := List.mem_map.mp hfound
      rw [issue_at_eq_noKindText_iff.mp htext] at hi
      exact absurd hi (noKind_notMem_lineIssues _ _)
  · intro hnone
    refine ⟨Issue.noKind.at (headerOf (contentLines lines)).1, List.mem_append_left _ ?_, rfl⟩
    apply List.mem_map_of_mem
    rw [headerIssues, if_pos hnone]
    exact List.mem_singleton_self _

/-! ### Reviews -/

/-- The lines that a value is checked by: those of the text inside a fence, or of no text. -/
def linesOf (source : Json) : List (List Char) :=
  Text.lines <| match source with
    | .str code => stripFences code.toList
    | _ => []

/-- Nothing is read, or what is read says that its kind is unknown. -/
def IsUnknown (source : Json) : Prop :=
  match Diagram.parseValue source with
  | .ok d => d.metadata.field? "declared_type" = some (.str "unknown")
  | .error _ => True

/-- The issues of a review are those of the lines. -/
theorem issues_review (source : Json) : (review source).issues = issuesOf (linesOf source) := by
  unfold review
  cases Diagram.parseValue source <;> rfl

/-- The warnings of a review are the remarks on the lines. -/
theorem warnings_review (source : Json) :
    (review source).warnings = remarksOf (linesOf source) := by
  unfold review
  cases Diagram.parseValue source <;> rfl

/-- Reading does not know the kind exactly when the header of the review names none. -/
theorem isUnknown_iff (source : Json) :
    IsUnknown source ↔ Declared.ofLine? (headerOf (contentLines (linesOf source))).2 = none := by
  cases source with
  | str code =>
    rw [IsUnknown, Diagram.parseValue, Diagram.parse]
    rcases header_cases (linesOf (.str code)) with
      ⟨hnone, hnil⟩ | ⟨header, body, n, rest, hsome, hcons⟩
    · rw [hnil]
      rw [linesOf] at hnone
      rw [hnone]
      exact iff_of_true trivial rfl
    · rw [hcons]
      rw [linesOf] at hsome
      rw [hsome]
      show _ ↔ Declared.ofLine? (trim header) = none
      rw [ofLine?_trim]
      exact declared_readBody header body
  | null | bool | int | real | arr | obj => exact iff_of_true trivial rfl

/-- The record of a review has no counts but zero, and no kind. -/
def TellsNothing (record : Json) : Prop :=
  record.field? "nodeCount" = some (.int 0) ∧ record.field? "edgeCount" = some (.int 0) ∧
    record.field? "diagramType" = none

/-- The counts and the kind in the record of a review are those of what is read. -/
def HasOutcome (record : Json) : Except ParseError Diagram → Prop
  | .ok d =>
    record.field? "nodeCount" = some (.int d.nodes.length) ∧
      record.field? "edgeCount" = some (.int d.edges.length) ∧
      record.field? "diagramType" = some (.str d.kind.name)
  | .error _ => TellsNothing record

/-- The record of a review tells what was read. -/
theorem hasOutcome_review (source : Json) :
    HasOutcome (review source).toJson (Diagram.parseValue source) := by
  unfold review
  cases Diagram.parseValue source with
  | ok d => exact ⟨rfl, rfl, rfl⟩
  | error e => exact ⟨rfl, rfl, rfl⟩

/-- Nothing is told exactly when nothing is read: what is read always has a kind. -/
theorem tellsNothing_iff (source : Json) :
    TellsNothing (review source).toJson ↔ ∃ e, Diagram.parseValue source = .error e := by
  have houtcome := hasOutcome_review source
  cases hread : Diagram.parseValue source with
  | ok d =>
    rw [hread] at houtcome
    obtain ⟨-, -, hkind⟩ := houtcome
    refine iff_of_false ?_ nofun
    rintro ⟨-, -, hnone⟩
    rw [hkind] at hnone
    exact nomatch hnone
  | error e =>
    rw [hread] at houtcome
    exact iff_of_true houtcome ⟨e, rfl⟩

/-- The findings come in the order of the lines, each at a line that counts. -/
structure IsOrderly (lines : List (List Char)) (findings : List Finding) : Prop where
  /-- No finding stands after one for a later line. -/
  ordered : (findings.map Finding.line).Pairwise (· ≤ ·)
  /-- Each stands at a line that counts, or at the first line when none does. -/
  lines : ∀ f ∈ findings, IsContentLine lines f.line ∨ IsOnlyLine lines f.line

/-- Findings of the first line and of each line that counts come in the order of the lines. -/
theorem isOrderly_findings {first : Nat → List Finding} {found : Nat × List Char → List Finding}
    (hfirst : ∀ n, ∀ f ∈ first n, f.line = n) (hfound : ∀ l, ∀ f ∈ found l, f.line = l.1) :
    IsOrderly lines (findings lines first found) :=
  ⟨pairwise_findings hfirst hfound, fun _ => line_of_mem_findings hfirst hfound⟩

/-- Issues come in the order of the lines. -/
theorem isOrderly_issuesOf (lines : List (List Char)) : IsOrderly lines (issuesOf lines) := by
  show IsOrderly lines (findings lines
    (fun n => (headerIssues (headerOf (contentLines lines)).2).map (Issue.at n)) _)
  exact isOrderly_findings (fun _ _ => line_of_mem_issues) fun _ _ => line_of_mem_issues

/-- Remarks come in the order of the lines. -/
theorem isOrderly_remarksOf (lines : List (List Char)) : IsOrderly lines (remarksOf lines) := by
  show IsOrderly lines (findings lines
    (fun n => (headerRemarks (headerOf (contentLines lines)).2).map (Remark.at n)) _)
  exact isOrderly_findings (fun _ _ => line_of_mem_remarks) fun _ _ => line_of_mem_remarks

/-- Every value has a review, text or not. The review has the counts and the kind of what is read,
and none exactly when nothing is read; it objects to the kind exactly when reading does not know it;
and its findings come in the order of the lines, each at a line that counts. -/
theorem review_reports (source : Json) :
    HasOutcome (review source).toJson (Diagram.parseValue source) ∧
      (TellsNothing (review source).toJson ↔ ∃ e, Diagram.parseValue source = .error e) ∧
      ((∃ f ∈ (review source).issues, f.issue = noKindText) ↔ IsUnknown source) ∧
      IsOrderly (linesOf source) (review source).issues ∧
      IsOrderly (linesOf source) (review source).warnings := by
  refine ⟨hasOutcome_review source, tellsNothing_iff source, ?_, ?_, ?_⟩
  · rw [issues_review, isUnknown_iff]
    exact exists_noKind_iff _
  · rw [issues_review]
    exact isOrderly_issuesOf _
  · rw [warnings_review]
    exact isOrderly_remarksOf _

end Diagrams.Check
