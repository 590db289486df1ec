import Diagrams.Parse
import Diagrams.Proofs.Reading.Content
import Diagrams.Proofs.Text.Pieces
import Mathlib.Data.List.TakeWhile

/-!
# Headers

The first line that counts is the header.

* `Source.HasContent` — some line of the text counts.
* `Diagram.exists_parse`, `Diagram.parse_eq_empty` — such texts are read, and no other ones.
* `Source.declared_readBody` — when the reading says that the kind of diagram is unknown.
* `Source.readBody_of_sequence`, `Source.readBody_of_mindmap` — what is read as such a diagram.
-/

namespace Diagrams

/-- Some line of the text counts. -/
def Source.HasContent (code : String) : Prop :=
  ∃ l ∈ Text.lines (Source.stripFences code.toList), Source.isContent l = true

/-- There is no header where no line counts. -/
theorem Source.headerAndBody?_eq_none {lines : List (List Char)} :
    Source.headerAndBody? lines = none ↔ ∀ l ∈ lines, Source.isContent l = false := by
  unfold Source.headerAndBody?
  constructor
  · intro h
    split at h
    · rename_i hnil
      simpa using List.dropWhile_eq_nil_iff.mp hnil
    · exact nomatch h
  · intro h
    have hnil : lines.dropWhile (fun l => !Source.isContent l) = [] :=
      List.dropWhile_eq_nil_iff.mpr (by simpa using h)
    rw [hnil]

/-- A text is read when a line of it counts. -/
theorem Diagram.exists_parse {code : String} (h : Source.HasContent code) :
    ∃ d, Diagram.parse code = .ok d := by
  unfold Diagram.parse
  split
  · rename_i hnone
    obtain ⟨l, hl, hcontent⟩ := h
    rw [Source.headerAndBody?_eq_none.mp hnone l hl] at hcontent
    exact absurd hcontent (by decide)
  · exact ⟨_, rfl⟩

/-- Otherwise it counts as empty. -/
theorem Diagram.parse_eq_empty {code : String} (h : ¬Source.HasContent code) :
    Diagram.parse code = .error .empty := by
  have hnone : Source.headerAndBody? (Text.lines (Source.stripFences code.toList)) = none := by
    rw [Source.headerAndBody?_eq_none]
    intro l hl
    rw [← Bool.not_eq_true]
    exact fun hcontent => h ⟨l, hl, hcontent⟩
  rw [Diagram.parse, hnone]

/-! ### The kind of diagram -/

namespace Source

/-- A line names the same kind when it is trimmed. -/
theorem ofLine?_trim (line : List Char) :
    Declared.ofLine? (Text.trim line) = Declared.ofLine? line := by
  apply ofLine?_congr
  exact Text.trim_eq_self (fun _ => Text.isBlank_head?_trim) fun _ => Text.isBlank_getLast?_trim

/-- No kind is called unknown. -/
theorem Declared.word_ne_unknown (kind : Declared) : kind.word ≠ "unknown" := by
  cases kind <;> decide

/-- The reading says that the kind is unknown exactly when the header names none. -/
theorem declared_readBody (header : List Char) (body : List (List Char)) :
    (readBody header body).metadata.field? "declared_type" = some (.str "unknown") ↔
      Declared.ofLine? header = none := by
  have hnothing : (Json.obj []).field? "declared_type" ≠ some (.str "unknown") :=
    (Option.some_ne_none _).symm
  have hdeclared (kind : Declared) :
      (readBody.declaredAs kind.word).field? "declared_type" ≠ some (.str "unknown") := by
    rintro hunknown
    apply kind.word_ne_unknown
    simpa [readBody.declaredAs, Json.field?, Table.get?] using hunknown
  unfold readBody
  cases Declared.ofLine? header with
  | none => exact iff_of_true rfl rfl
  | some kind =>
    refine iff_of_false ?_ (Option.some_ne_none kind)
    cases kind with
    | sequence | entityRelationship | mindmap | flowchart => exact hnothing
    | classes | states | gitGraph => exact hdeclared _

variable {header : List Char} {body : List (List Char)}

/-- What is read as a sequence diagram comes from the lines after its header. -/
theorem readBody_of_sequence (h : (readBody header body).kind = Dialect.sequence) :
    readBody header body = Sequence.read body := by
  unfold readBody at h ⊢
  split at h <;> first | rfl | exact nomatch h

/-- What is read as a mindmap comes from the lines after its header. -/
theorem readBody_of_mindmap (h : (readBody header body).kind = Dialect.mindmap) :
    readBody header body = Mindmap.read body := by
  unfold readBody at h ⊢
  split at h <;> first | rfl | exact nomatch h

end Source

end Diagrams
