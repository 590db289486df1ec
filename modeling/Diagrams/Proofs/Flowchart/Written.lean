import Diagrams.Proofs.Text.Pieces
import Diagrams.Flowchart.Scan

/-!
# Written statements of a flowchart

What may stand on a line of a flowchart, as it is written: `Statement` holds the parts with the
white space between them, and `Statement.chars` is the line. What the parts may hold is part of
their structures, so every value can be written.

The lines are recognised by splitting text off the start, so each lemma speaks of a piece with other
text behind it.

* `WrittenShape` — a shape holds no brackets but its own. The cut after a closing bracket therefore
  comes at its end, or one character too early when the closing mark is doubled; then a closing
  bracket is left (`shapeSplits_fragment`).
* `Mention` — a name with or without a shape. The name ends before the shape (`name?_mention`).
-/

namespace Diagrams

open Text

/-- The marks with which a shape is written. -/
def Shape.bracket : Shape → Bracket
  | .stadium => ⟨['(', '['], ']', [')'], .stadium⟩
  | .circle => ⟨['(', '('], ')', [')'], .circle⟩
  | .subroutine => ⟨['[', '['], ']', [']'], .subroutine⟩
  | .rectangle => ⟨['['], ']', [], .rectangle⟩
  | .roundedRect => ⟨['('], ')', [], .roundedRect⟩
  | .diamond => ⟨['{'], '}', [], .diamond⟩

namespace Flowchart

/-! ### What is written -/

/-- A character that may stand in the text of a shape: no bracket, and no newline since the shape
stands on one line. -/
def isPlain (c : Char) : Bool := !isOpening c && !isClosing c && c != '\n'

/-- A shape as it is written. -/
structure WrittenShape where
  /-- The shape. -/
  shape : Shape
  /-- The text between the marks. -/
  text : List Char
  /-- There is some text. -/
  text_ne_nil : text ≠ []
  /-- It holds no brackets. -/
  isPlain : ∀ c ∈ text, isPlain c = true

/-- The shape and the label that it gives a node. -/
def WrittenShape.label (w : WrittenShape) : ShapedLabel :=
  ⟨w.shape, String.ofList (trim w.text)⟩

/-- The marks with the text between them. -/
def WrittenShape.fragment (w : WrittenShape) : List Char :=
  w.shape.bracket.opening ++ (w.text ++ w.shape.bracket.bar :: w.shape.bracket.closing)

/-- A node as it is mentioned. -/
structure Mention where
  /-- The name. -/
  name : Name
  /-- The shape, when one is written. -/
  shape : Option WrittenShape

/-- The characters of the shape, if any. -/
def Mention.fragment (m : Mention) : List Char := (m.shape.map WrittenShape.fragment).getD []

/-- The name with the shape behind it. -/
def Mention.chars (m : Mention) : List Char := m.name.chars ++ m.fragment

/-- What is read of the mention. -/
def Mention.target (m : Mention) : Target := ⟨m.name.text, m.shape.map WrittenShape.fragment⟩

/-- The keyword of a group's start as a name. -/
def groupKeyword : Name := ⟨"subgraph".toList, by decide, by decide⟩

/-- A connection as it is written. -/
structure Connection where
  /-- The node where it starts. -/
  source : Mention
  /-- Its name is not the keyword of a group's start. -/
  source_ne : source.name.chars ≠ groupKeyword.chars
  /-- White space before the arrow. -/
  beforeArrow : Space
  /-- The arrow. -/
  arrow : Arrow
  /-- The label, when bars are written. -/
  label : Option {l : List Char // '|' ∉ l}
  /-- White space before the target. -/
  beforeTarget : Space
  /-- The node where it ends. -/
  target : Mention
  /-- The number of semicolons. -/
  semicolons : Nat

/-- The label, empty when none is written. -/
def Connection.labelText (c : Connection) : List Char := (c.label.map Subtype.val).getD []

/-- The target and the semicolons. -/
def Connection.targetChars (c : Connection) : List Char :=
  c.target.chars ++ List.replicate c.semicolons ';'

/-- The label in bars, if any, and the target. -/
def Connection.labelledChars (c : Connection) : List Char :=
  match c.label with
  | some l => '|' :: (l.val ++ '|' :: (c.beforeTarget.chars ++ c.targetChars))
  | none => c.beforeTarget.chars ++ c.targetChars

/-- What stands behind the source. -/
def Connection.linkChars (c : Connection) : List Char :=
  c.beforeArrow.chars ++ (c.arrow.token ++ c.labelledChars)

/-- A group's start as it is written. -/
structure Opener where
  /-- White space after the keyword. -/
  gap : Space
  /-- There is some. -/
  gap_ne_nil : gap.chars ≠ []
  /-- The name. -/
  name : Name
  /-- The label and the white space before it, when brackets are written. -/
  label : Option (Space × {l : List Char // ']' ∉ l})

/-- The label, which is the name when none is written or an empty one. -/
def Opener.labelText (o : Opener) : List Char :=
  match o.label with
  | some (_, l) => if l.val = [] then o.name.chars else l.val
  | none => o.name.chars

/-- What stands behind the name. -/
def Opener.labelChars (o : Opener) : List Char :=
  match o.label with
  | some (s, l) => s.chars ++ '[' :: (l.val ++ [']'])
  | none => []

/-- What stands on a line, without the white space at its ends. -/
inductive Statement where
  /-- A connection. -/
  | connection (c : Connection)
  /-- The declaration of a node, whose name is not the keyword of a group's start. -/
  | declaration (name : Name) (name_ne : name.chars ≠ groupKeyword.chars) (shape : WrittenShape)
  /-- A group's start. -/
  | opener (o : Opener)
  /-- A group's end. -/
  | closer
  /-- Nothing. -/
  | blank
  /-- A comment. -/
  | comment (text : List Char)

namespace Statement

/-- The characters on the line. -/
def chars : Statement → List Char
  | connection c => c.source.chars ++ c.linkChars
  | declaration name _ shape => name.chars ++ shape.fragment
  | opener o => groupKeyword.chars ++ (o.gap.chars ++ (o.name.chars ++ o.labelChars))
  | closer => ['e', 'n', 'd']
  | blank => []
  | comment text => '%' :: '%' :: text

/-- What the line says. -/
def line : Statement → Line
  | connection c =>
    .connection c.source.target c.arrow (String.ofList (trim c.labelText)) c.target.target
  | declaration name _ shape => .declaration name.text shape.fragment
  | opener o => .groupStart o.name.text (String.ofList o.labelText)
  | closer => .groupEnd
  | blank => .ignored
  | comment _ => .ignored

/-- Whether the statement is neither nothing nor a comment. -/
def hasContent : Statement → Bool
  | blank => false
  | comment _ => false
  | _ => true

end Statement

/-! ### Marks -/

variable {c d : Char} {cs rest : List Char}

/-- There are three closing marks. -/
theorem isClosing_cases (h : isClosing c = true) : c = ']' ∨ c = ')' ∨ c = '}' := by
  simpa [isClosing, or_assoc] using h

/-- There are three opening marks. -/
theorem isOpening_cases (h : isOpening c = true) : c = '[' ∨ c = '(' ∨ c = '{' := by
  simpa [isOpening, or_assoc] using h

/-- An opening mark stands first in the writing of a shape, and the marks after it are no closing
ones. -/
theorem bracket_opening (s : Shape) :
    ∃ c more, s.bracket.opening = c :: more ∧ isOpening c = true ∧
      ∀ d ∈ more, isClosing d = false ∧ d ≠ '\n' := by
  cases s <;> exact ⟨_, _, rfl, by decide, by decide⟩

/-- One closing mark, perhaps with another one behind it, stands last. -/
theorem bracket_closing (s : Shape) :
    isClosing s.bracket.bar = true ∧
      (s.bracket.closing = [] ∨ ∃ c, s.bracket.closing = [c] ∧ isClosing c = true) := by
  cases s
  all_goals first
    | exact ⟨by decide, .inl rfl⟩
    | exact ⟨by decide, .inr ⟨_, rfl, by decide⟩⟩

/-- The text of a shape holds neither marks nor newlines. -/
theorem WrittenShape.isPlain_text (w : WrittenShape) (hc : c ∈ w.text) :
    isOpening c = false ∧ isClosing c = false ∧ c ≠ '\n' := by
  simpa [Flowchart.isPlain, and_assoc] using w.isPlain c hc

/-! ### Shapes -/

/-- Text without closing marks is not cut. -/
theorem cuts_append (h : ∀ c ∈ cs, isClosing c = false ∧ c ≠ '\n') (rest : List Char) :
    cuts (cs ++ rest) = (cuts rest).map fun p => (cs ++ p.1, p.2) := by
  induction cs with
  | nil => simp
  | cons c cs ih =>
    obtain ⟨hc, hn⟩ := h c List.mem_cons_self
    rw [List.cons_append, cuts, if_neg hn, ih fun d hd => h d (List.mem_cons_of_mem c hd)]
    simp [hc]

/-- The first cut is made after a closing mark that stands first. -/
theorem cuts_cons (h : isClosing c = true) (cs : List Char) :
    cuts (c :: cs) = ([c], cs) :: (cuts cs).map fun p => (c :: p.1, p.2) := by
  have hn : c ≠ '\n' := by
    rintro rfl
    exact absurd h (by decide)
  rw [cuts, if_neg hn]
  simp [h]

/-- One way of splitting off a shape takes the shape as it is written. A shorter one leaves a
closing mark, and a longer one exists when more text can be cut. -/
theorem shapeSplits_fragment (w : WrittenShape) (rest : List Char) :
    ∃ early, shapeSplits (w.fragment ++ rest) =
        early ++ (some w.fragment, rest) ::
          (cuts rest).map (fun p => (some (w.fragment ++ p.1), p.2)) ∧
      ∀ s ∈ early, ∃ c cs, s.2 = c :: cs ∧ isClosing c = true := by
  obtain ⟨o, more, hopening, ho, hmore⟩ := bracket_opening w.shape
  obtain ⟨hbar, hclosing⟩ := bracket_closing w.shape
  have hinside : ∀ c ∈ more ++ w.text, isClosing c = false ∧ c ≠ '\n' := by
    intro c hc
    rcases List.mem_append.mp hc with hc | hc
    · exact hmore c hc
    · exact (w.isPlain_text hc).2
  have hsplits : shapeSplits (w.fragment ++ rest) =
      (cuts (w.shape.bracket.bar :: (w.shape.bracket.closing ++ rest))).map fun p =>
        (some (o :: (more ++ w.text ++ p.1)), p.2) := by
    have hcs : w.fragment ++ rest = o ::
        (more ++ w.text ++ (w.shape.bracket.bar :: (w.shape.bracket.closing ++ rest))) := by
      simp [WrittenShape.fragment, hopening]
    rw [hcs, shapeSplits, if_pos ho, cuts_append hinside]
    simp
  rcases hclosing with hnone | ⟨d, hone, hd⟩
  · refine ⟨[], ?_, by simp⟩
    rw [hsplits, cuts_cons hbar]
    simp [WrittenShape.fragment, hopening, hnone, Function.comp_def]
  · -- the cut between the two closing marks comes first
    refine ⟨[(some (o :: (more ++ w.text ++ [w.shape.bracket.bar])), d :: rest)], ?_, ?_⟩
    · rw [hsplits, cuts_cons hbar, hone, List.singleton_append, cuts_cons hd]
      simp [WrittenShape.fragment, hopening, hone, Function.comp_def]
    · intro s hs
      rw [List.mem_singleton.mp hs]
      exact ⟨d, rest, rfl, hd⟩

/-- Text that opens no shape is split in one way. -/
theorem shapeSplits_of_not_isOpening (h : ∀ c ∈ cs.head?, isOpening c = false) :
    shapeSplits cs = [(none, cs)] := by
  cases cs with
  | nil => rfl
  | cons c cs => simp [shapeSplits, h c rfl]

/-- A written shape starts with an opening mark and ends with a closing one, and there is text
between. -/
theorem exists_fragment_eq (w : WrittenShape) :
    ∃ o inside d, w.fragment = o :: (inside ++ [d]) ∧ isOpening o = true ∧ isClosing d = true ∧
      inside ≠ [] ∧ '\n' ∉ inside := by
  obtain ⟨o, more, hopening, ho, hmore⟩ := bracket_opening w.shape
  obtain ⟨hbar, hclosing⟩ := bracket_closing w.shape
  have hmark : ∀ c, isClosing c = true → c ≠ '\n' := by
    rintro c hc rfl
    exact absurd hc (by decide)
  have htext : '\n' ∉ more ++ w.text := by
    intro hn
    rcases List.mem_append.mp hn with hn | hn
    · exact (hmore _ hn).2 rfl
    · exact (w.isPlain_text hn).2.2 rfl
  rcases hclosing with hnone | ⟨d, hone, hd⟩
  · refine ⟨o, more ++ w.text, w.shape.bracket.bar, ?_, ho, hbar, ?_, htext⟩
    · simp [WrittenShape.fragment, hopening, hnone]
    · simp [w.text_ne_nil]
  · refine ⟨o, more ++ w.text ++ [w.shape.bracket.bar], d, ?_, ho, hd, by simp, ?_⟩
    · simp [WrittenShape.fragment, hopening, hone]
    · intro hn
      rcases List.mem_append.mp hn with hn | hn
      · exact htext hn
      · exact hmark _ hbar (List.mem_singleton.mp hn).symm

/-- A written shape stands on one line. -/
theorem newline_notMem_fragment (w : WrittenShape) : '\n' ∉ w.fragment := by
  obtain ⟨o, inside, d, hw, ho, hd, -, hinside⟩ := exists_fragment_eq w
  have hon : '\n' ≠ o := by
    rintro rfl
    exact absurd ho (by decide)
  have hdn : '\n' ≠ d := by
    rintro rfl
    exact absurd hd (by decide)
  simp [hw, hon, hdn, hinside]

/-- A written shape is whole. -/
theorem isWhole_fragment (w : WrittenShape) {n : Nat} (hn : n ≤ 1) :
    isWhole n w.fragment = true := by
  obtain ⟨o, inside, d, hw, ho, hd, hinside, -⟩ := exists_fragment_eq w
  have hlen := List.length_pos_iff.mpr hinside
  have hnl := newline_notMem_fragment w
  have hbetween : n + 2 ≤ w.fragment.length := by
    simp only [hw, List.length_cons, List.length_append, List.length_nil]
    omega
  have hends : w.fragment.head?.any isOpening = true ∧ w.fragment.getLast?.any isClosing = true := by
    simp [hw, ho, hd, List.getLast?_cons]
  simp [isWhole, hends, hnl, hbetween]

/-- The text between the marks is found when it does not hold the mark behind it. -/
theorem bracketed?_append {opening closing text : List Char} {bar : Char} (hne : text ≠ [])
    (hbar : bar ∉ text) :
    bracketed? opening bar closing (opening ++ (text ++ bar :: closing)) = some text := by
  have hopen : after? opening (opening ++ (text ++ bar :: closing)) =
      some (text ++ bar :: closing) := after?_eq_some_iff.mpr rfl
  have htake := takeWhile_bne_append hbar closing
  have hdrop := dropWhile_bne_append hbar closing
  have hclose : after? (bar :: closing) (bar :: closing) = some [] :=
    after?_eq_some_iff.mpr (by simp)
  simp only [bracketed?, hopen, Option.bind_eq_bind, Option.bind_some, htake, hdrop, hclose]
  simp [hne, atEnd]

/-- The text of a written shape starts with no opening mark. -/
theorem WrittenShape.exists_text_eq_cons (w : WrittenShape) :
    ∃ t ts, w.text = t :: ts ∧ ∀ c, isOpening c = true → c ≠ t := by
  obtain ⟨t, ts, ht⟩ := List.exists_cons_of_ne_nil w.text_ne_nil
  refine ⟨t, ts, ht, ?_⟩
  rintro c hc rfl
  have hplain := (w.isPlain_text (ht ▸ List.mem_cons_self)).1
  simp [hplain] at hc

/-- The brackets that are tried before those of a written shape do not open it: either another mark
comes first, or no second mark follows. -/
theorem exists_all_eq (w : WrittenShape) :
    ∃ tried later, Bracket.all = tried ++ w.shape.bracket :: later ∧
      ∀ b ∈ tried, after? b.opening w.fragment = none := by
  obtain ⟨t, ts, ht, hopen⟩ := w.exists_text_eq_cons
  have hsquare := hopen '[' (by decide)
  have hround := hopen '(' (by decide)
  obtain ⟨shape, text, hne, hplain⟩ := w
  simp only at ht
  cases shape with
  | stadium => exact ⟨[], _, rfl, by simp⟩
  | circle =>
    refine ⟨Bracket.all.take 1, _, rfl, ?_⟩
    simp [Bracket.all, WrittenShape.fragment, Shape.bracket, after?]
  | subroutine =>
    refine ⟨Bracket.all.take 2, _, rfl, ?_⟩
    simp [Bracket.all, WrittenShape.fragment, Shape.bracket, after?]
  | rectangle =>
    refine ⟨Bracket.all.take 3, _, rfl, ?_⟩
    simp [Bracket.all, WrittenShape.fragment, Shape.bracket, after?, ht, hsquare]
  | roundedRect =>
    refine ⟨Bracket.all.take 4, _, rfl, ?_⟩
    simp [Bracket.all, WrittenShape.fragment, Shape.bracket, after?, ht, hsquare, hround]
  | diamond =>
    refine ⟨Bracket.all.take 5, _, rfl, ?_⟩
    simp [Bracket.all, WrittenShape.fragment, Shape.bracket, after?]

/-- A written shape stands for itself and its trimmed text. -/
theorem ofFragment_fragment (w : WrittenShape) : ShapedLabel.ofFragment w.fragment = w.label := by
  have hbody : w.shape.bracket.body? w.fragment = some w.text := by
    apply bracketed?_append w.text_ne_nil
    intro hmem
    have hplain := (w.isPlain_text hmem).2.1
    simp [(bracket_closing w.shape).1] at hplain
  have hshape : w.shape.bracket.shape = w.shape := by
    cases w.shape <;> rfl
  obtain ⟨tried, later, hall, htried⟩ := exists_all_eq w
  have hnone : tried.findSome? (fun b => (b.body? w.fragment).map fun body => (b.shape, body)) =
      none := by
    rw [List.findSome?_eq_none_iff]
    intro b hb
    simp [Bracket.body?, bracketed?, htried b hb]
  have hfound : Bracket.all.findSome?
      (fun b => (b.body? w.fragment).map fun body => (b.shape, body)) = some (w.shape, w.text) := by
    rw [hall, List.findSome?_append, hnone]
    simp [hbody, hshape]
  rw [ShapedLabel.ofFragment, hfound, WrittenShape.label]

/-! ### Mentions -/

/-- An opening mark is no word character. -/
theorem isWord_eq_false_of_isOpening (h : isOpening c = true) : isWord c = false := by
  rcases isOpening_cases h with rfl | rfl | rfl <;> decide

/-- An opening mark is no white space. -/
theorem isBlank_eq_false_of_isOpening (h : isOpening c = true) : isBlank c = false := by
  rcases isOpening_cases h with rfl | rfl | rfl <;> decide

/-- A word character is no opening mark. -/
theorem isOpening_eq_false_of_isWord (h : isWord c = true) : isOpening c = false := by
  rw [Bool.eq_false_iff]
  intro hopening
  rw [isWord_eq_false_of_isOpening hopening] at h
  exact Bool.false_ne_true h

/-- A closing mark is no white space. -/
theorem isBlank_eq_false_of_isClosing (h : isClosing c = true) : isBlank c = false := by
  rcases isClosing_cases h with rfl | rfl | rfl <;> decide

/-- A shape ends the name before it. -/
theorem stopsName_fragment (m : Mention) (h : StopsName rest) :
    StopsName (m.fragment ++ rest) := by
  unfold Mention.fragment
  cases m.shape with
  | none => exact h
  | some w =>
    obtain ⟨o, inside, d, hw, ho, -⟩ := exists_fragment_eq w
    show StopsName (w.fragment ++ rest)
    rw [hw]
    exact stopsName_cons (isWord_eq_false_of_isOpening ho)

/-- The name of a mention is split off. -/
theorem name?_mention (m : Mention) (h : StopsName rest) :
    name? (m.chars ++ rest) = some (m.name.chars, m.fragment ++ rest) := by
  rw [Mention.chars, List.append_assoc]
  exact name?_append m.name (stopsName_fragment m h)

/-- A mention ends with a word character or a closing mark. -/
theorem exists_mention_concat (m : Mention) :
    ∃ front d, m.chars = front ++ [d] ∧ (isWord d = true ∨ isClosing d = true) := by
  unfold Mention.chars Mention.fragment
  cases m.shape with
  | none =>
    obtain ⟨front, d, hconcat⟩ := (List.eq_nil_or_concat m.name.chars).resolve_left m.name.ne_nil
    refine ⟨front, d, by simpa using hconcat, .inl (m.name.isWord d ?_)⟩
    simp [hconcat]
  | some w =>
    obtain ⟨o, inside, d, hw, -, hd, -⟩ := exists_fragment_eq w
    refine ⟨m.name.chars ++ o :: inside, d, ?_, .inr hd⟩
    simp [hw]

/-- A mention stands on one line. -/
theorem newline_notMem_mention (m : Mention) : '\n' ∉ m.chars := by
  have hname : '\n' ∉ m.name.chars := by
    intro hn
    exact absurd (m.name.isWord _ hn) (by decide)
  unfold Mention.chars Mention.fragment
  cases m.shape with
  | none => simpa using hname
  | some w => simp [hname, newline_notMem_fragment w]

end Flowchart

end Diagrams
