import Diagrams.Proofs.Flowchart.Growth

/-!
# Connections that go on behind their target

**Main statement** (`reads_chained`): a line whose target is followed by another arrow gives one edge,
to the first target, and has no other effect than the connection that ends there, unless the rest of
the line is taken for the target's shape. That happens when a shape stands behind the target and the
line, without white space and semicolons at its end, ends with a closing bracket. The target then
becomes a rectangle labelled by all that stands behind its name.

* `Continuation` — what stands behind the name of the first target.
* `bareTarget_continuation` — an arrow is neither white space nor a semicolon, so only what stands
  behind it loses its end.
* `isWhole_kept` — the rest of the line is whole when its two ends are brackets; those in between do
  not matter.
* `body?_append` — no bracket fits a shape with more text behind it.
-/

namespace Diagrams.Flowchart

open Text

/-! ### What stands behind a target -/

/-- A shape of whatever kind: text that opens with one bracket and closes with another. -/
structure Fragment where
  /-- The first character. -/
  opening : Char
  /-- The text between. -/
  inside : List Char
  /-- The last character. -/
  closing : Char
  /-- The first character opens a shape. -/
  isOpening : isOpening opening = true
  /-- The last character closes one. -/
  isClosing : isClosing closing = true

/-- The characters of the shape. -/
def Fragment.chars (f : Fragment) : List Char := f.opening :: (f.inside ++ [f.closing])

/-- What stands behind the name of a target when the line goes on. -/
structure Continuation where
  /-- The shape, when one is written. -/
  shape : Option Fragment
  /-- White space before the arrow. -/
  gap : Space
  /-- The arrow. -/
  arrow : Arrow
  /-- The rest of the line. -/
  further : List Char

/-- Text without the white space and the semicolons at its end. -/
def bareEnd (cs : List Char) : List Char := trimRight (dropTrailing (· == ';') (trimRight cs))

namespace Continuation

variable (k : Continuation)

/-- The characters of the shape, if any. -/
def shapeChars : List Char := (k.shape.map Fragment.chars).getD []

/-- The characters behind the name. -/
def chars : List Char := k.shapeChars ++ (k.gap.chars ++ (k.arrow.token ++ k.further))

/-- The characters behind the name without the white space and the semicolons at their end. -/
def kept : List Char := k.shapeChars ++ (k.gap.chars ++ (k.arrow.token ++ bareEnd k.further))

/-- The characters behind the name stand on one line between a bracket that opens and another one
that closes. -/
def IsCaptured : Prop :=
  k.shape.isSome ∧ (bareEnd k.further).getLast?.any isClosing ∧ '\n' ∉ k.kept

instance : Decidable k.IsCaptured := by unfold IsCaptured; infer_instance

/-- What is taken for the shape of the target. -/
def captured : Option (List Char) := if k.IsCaptured then some k.kept else none

end Continuation

/-! ### Targets -/

/-- An arrow ends with a character that is dropped nowhere. -/
theorem exists_token_concat (a : Arrow) :
    ∃ front c, a.token = front ++ [c] ∧ isBlank c = false ∧ (c == ';') = false ∧
      isClosing c = false := by
  refine ⟨a.token.dropLast, a.token.getLastD '-', ?_⟩
  cases a <;> decide

variable {cs rest : List Char}

/-- What stands before an arrow is kept with it. -/
theorem bareEnd_token_append (front : List Char) (a : Arrow) (rest : List Char) :
    bareEnd (front ++ (a.token ++ rest)) = front ++ (a.token ++ bareEnd rest) := by
  obtain ⟨before, c, htoken, hblank, hsemicolon, -⟩ := exists_token_concat a
  have hsplit : ∀ rest, front ++ (a.token ++ rest) = front ++ before ++ c :: rest := by
    simp [htoken]
  rw [hsplit, hsplit]
  simp only [bareEnd, trimRight, dropTrailing_append_of_kept hblank,
    dropTrailing_append_of_kept (p := (· == ';')) hsemicolon]

/-- The arrow stands behind the shape and the gap. -/
theorem Continuation.chars_eq (k : Continuation) :
    k.chars = (k.shapeChars ++ k.gap.chars) ++ (k.arrow.token ++ k.further) := by
  simp [Continuation.chars]

/-- The same of what is kept. -/
theorem Continuation.kept_eq (k : Continuation) :
    k.kept = (k.shapeChars ++ k.gap.chars) ++ (k.arrow.token ++ bareEnd k.further) := by
  simp [Continuation.kept]

/-- Nothing is dropped at the start of a text that does not start with white space. -/
theorem bareTarget_eq_bareEnd (h : ∀ c ∈ cs.head?, isBlank c = false) :
    bareTarget cs = bareEnd cs := by
  have hprefix : ∀ ds, ds <+: cs → trimLeft ds = ds := by
    rintro ds ⟨rest, rfl⟩
    apply trimLeft_eq_self
    intro c hc
    apply h c
    rw [Option.mem_def] at hc ⊢
    rw [List.head?_append, hc]
    rfl
  have hdrop : ∀ (p : Char → Bool) ds, dropTrailing p ds <+: ds := by
    intro p ds
    rw [dropTrailing_eq_rdropWhile]
    exact List.rdropWhile_prefix p ds
  have htrim : trim cs = trimRight cs := by rw [trim, hprefix cs List.prefix_rfl]
  have hsemicolons : dropTrailing (· == ';') (trimRight cs) <+: cs :=
    (hdrop _ _).trans (hdrop isBlank cs)
  rw [bareTarget, htrim, trim, hprefix _ hsemicolons, bareEnd]

/-- White space and semicolons are dropped behind the second arrow and nowhere else. -/
theorem bareTarget_continuation (n : Name) (k : Continuation) :
    bareTarget (n.chars ++ k.chars) = n.chars ++ k.kept := by
  rw [bareTarget_eq_bareEnd (isBlank_head?_name n k.chars), k.chars_eq, k.kept_eq,
    ← List.append_assoc, bareEnd_token_append, List.append_assoc]

/-- Behind the name comes a bracket, white space or an arrow. -/
theorem stopsName_kept (k : Continuation) : StopsName k.kept := by
  unfold Continuation.kept Continuation.shapeChars
  cases k.shape with
  | none => exact fun c hc => (arrow_head? k.gap k.arrow _ hc).1
  | some f => exact stopsName_cons (isWord_eq_false_of_isOpening f.isOpening)

/-- What stands behind the name opens a shape when a shape is written there. -/
theorem head?_kept (k : Continuation) : k.kept.head?.any isOpening = k.shape.isSome := by
  unfold Continuation.kept Continuation.shapeChars
  cases k.shape with
  | none =>
    rw [Option.isSome_none, Option.any_eq_false]
    intro c hc
    simpa using (arrow_head? k.gap k.arrow _ hc).2
  | some f => simp [Fragment.chars, f.isOpening]

/-- It ends as the rest of the line does. -/
theorem getLast?_kept (k : Continuation) :
    k.kept.getLast?.any isClosing = (bareEnd k.further).getLast?.any isClosing := by
  obtain ⟨before, c, htoken, -, -, hclosing⟩ := exists_token_concat k.arrow
  rw [k.kept_eq, ← List.append_assoc]
  cases hend : bareEnd k.further with
  | nil => simp [htoken, hclosing]
  | cons d ds => rw [List.getLast?_append_of_ne_nil _ (List.cons_ne_nil d ds)]

/-- What is kept is longer than a character. -/
theorem two_le_length_kept (k : Continuation) : 2 ≤ k.kept.length := by
  have htoken : 3 ≤ k.arrow.token.length := by cases k.arrow <;> decide
  rw [Continuation.kept]
  simp only [List.length_append]
  omega

/-- The rest of the line is taken for a shape exactly when it is captured. -/
theorem isWhole_kept (k : Continuation) : isWhole 0 k.kept = decide k.IsCaptured := by
  have hlength := two_le_length_kept k
  rw [isWhole, head?_kept, getLast?_kept, Bool.eq_iff_iff, decide_eq_true_iff]
  simp [Continuation.IsCaptured, hlength, and_assoc]

/-- A target with more behind it is its name, and a shape when all the rest is taken for one. -/
theorem ofText?_continuation (n : Name) (k : Continuation) :
    Target.ofText? (n.chars ++ k.chars) = some ⟨n.text, k.captured⟩ := by
  have hname := name?_append n (stopsName_kept k)
  simp [Target.ofText?, bareTarget_continuation, hname, isWhole_kept, Continuation.captured,
    Name.text]

/-! ### Labels -/

/-- A bracket does not fit when more than its last marks follow the first bar. -/
theorem bracketed?_eq_none {opening closing text more : List Char} {bar : Char}
    (hbar : bar ∉ text) (hmore : closing.length + 1 < more.length) :
    bracketed? opening bar closing (opening ++ (text ++ bar :: more)) = none := by
  have hopen : after? opening (opening ++ (text ++ bar :: more)) = some (text ++ bar :: more) :=
    after?_eq_some_iff.mpr rfl
  have hdrop := dropWhile_bne_append hbar more
  simp only [bracketed?, hopen, Option.bind_eq_bind, Option.bind_some, hdrop]
  cases hclose : after? (bar :: closing) (bar :: more) with
  | none => rfl
  | some rest =>
    have hend : atEnd rest = false := by
      have hlength := congrArg List.length (after?_eq_some_iff.mp hclose)
      simp only [List.length_cons, List.length_append] at hlength
      rcases rest with _ | ⟨_, _ | ⟨_, _⟩⟩
      · simp only [List.length_nil] at hlength
        omega
      · simp only [List.length_singleton] at hlength
        omega
      · simp [atEnd]
    simp [hend]

/-- A bracket does not open a written shape, or its first bar stands in the shape. -/
theorem after?_fragment_cases (w : WrittenShape) {b : Bracket} (hb : b ∈ Bracket.all)
    (rest : List Char) :
    after? b.opening (w.fragment ++ rest) = none ∨
      ∃ text more, w.fragment = b.opening ++ (text ++ b.bar :: more) ∧ b.bar ∉ text := by
  obtain ⟨t, ts, ht, hopen⟩ := w.exists_text_eq_cons
  have hsquare := hopen '[' (by decide)
  have hround := hopen '(' (by decide)
  have hclosing : ∀ c, isClosing c = true → c ∉ w.text := by
    intro c hc hmem
    have hplain := (w.isPlain_text hmem).2.1
    simp [hplain] at hc
  obtain ⟨shape, text, hne, hplain⟩ := w
  simp only at ht hclosing
  have hround' := hclosing ')' (by decide)
  have hsquare' := hclosing ']' (by decide)
  have hcurly' := hclosing '}' (by decide)
  simp only [Bracket.all, List.mem_cons, List.not_mem_nil, or_false] at hb
  rcases hb with rfl | rfl | rfl | rfl | rfl | rfl <;> cases shape
  all_goals first
    | exact .inr ⟨text, _, rfl, by assumption⟩
    | left
      simp [after?, WrittenShape.fragment, Shape.bracket, ht, hsquare, hround]
      done
    -- a single bracket opens where a doubled one does
    | exact .inr ⟨'(' :: text, [')'], rfl, by simpa using hround'⟩
    | exact .inr ⟨'[' :: text, [']'], rfl, by simpa using hsquare'⟩
    | refine .inr ⟨'[' :: (text ++ [']']), [], ?_, by simpa using hround'⟩
      simp [WrittenShape.fragment, Shape.bracket]

/-- No bracket fits a written shape when an arrow follows it somewhere. -/
theorem body?_append (w : WrittenShape) {b : Bracket} (hb : b ∈ Bracket.all)
    (hrest : 3 ≤ rest.length) : b.body? (w.fragment ++ rest) = none := by
  have hclosing : b.closing.length ≤ 1 := by
    revert b
    decide
  rcases after?_fragment_cases w hb rest with hopen | ⟨text, more, hw, hbar⟩
  · rw [Bracket.body?, bracketed?, hopen]
    rfl
  · rw [Bracket.body?, hw, List.append_assoc, List.append_assoc, List.cons_append]
    apply bracketed?_eq_none hbar
    rw [List.length_append]
    omega

/-- Nothing is left to trim behind the second arrow. -/
theorem trimRight_kept (k : Continuation) : trimRight k.kept = k.kept := by
  obtain ⟨before, c, htoken, hblank, -⟩ := exists_token_concat k.arrow
  have hsplit : k.kept = (k.shapeChars ++ k.gap.chars ++ before) ++ c :: bareEnd k.further := by
    simp [Continuation.kept, htoken]
  have hend : dropTrailing isBlank (bareEnd k.further) = bareEnd k.further :=
    trimRight_trimRight _
  rw [hsplit, trimRight, dropTrailing_append_of_kept hblank, hend]

/-- What stands behind the name is its own label, brackets and all. -/
theorem ofFragment_kept (k : Continuation) (w : WrittenShape) (h : k.shapeChars = w.fragment) :
    ShapedLabel.ofFragment k.kept = ⟨.rectangle, String.ofList k.kept⟩ := by
  have htoken : 3 ≤ k.arrow.token.length := by cases k.arrow <;> decide
  have hnone : Bracket.all.findSome?
      (fun b => (b.body? k.kept).map fun body => (b.shape, body)) = none := by
    rw [List.findSome?_eq_none_iff]
    intro b hb
    have hlong : 3 ≤ (k.gap.chars ++ (k.arrow.token ++ bareEnd k.further)).length := by
      simp only [List.length_append]
      omega
    rw [Continuation.kept, h, body?_append w hb hlong, Option.map_none]
  have hstart : trimLeft k.kept = k.kept := by
    obtain ⟨o, inside, d, hw, ho, -⟩ := exists_fragment_eq w
    rw [Continuation.kept, h, hw]
    exact trimLeft_cons (isBlank_eq_false_of_isOpening ho) _
  rw [ShapedLabel.ofFragment, hnone, trim, hstart, trimRight_kept]

/-! ### Lines -/

/-- A line that goes on behind the target of its first connection. -/
structure ChainedLine where
  /-- The characters on the line. -/
  chars : List Char
  /-- The name of the node where the connection starts. -/
  source : List Char
  /-- The shape that is written for it, if any. -/
  fragment : Option (List Char)
  /-- The arrow. -/
  arrow : Arrow
  /-- The label, empty when none is written. -/
  label : List Char
  /-- The name of the node where the connection ends. -/
  target : Name
  /-- What stands behind it. -/
  rest : Continuation
  /-- The line does not start with the keyword of a group's start. -/
  keyword : afterGroupKeyword? chars = none
  /-- The line is a connection, and these are its parts. -/
  parts : connection? chars = some (source, fragment, arrow, label, target.chars ++ rest.chars)

namespace ChainedLine

/-- The connection that ends at the name of the first target. -/
def bare (l : ChainedLine) : Line :=
  .connection ⟨String.ofList l.source, l.fragment⟩ l.arrow (String.ofList (trim l.label))
    ⟨l.target.text, none⟩

/-- The edge of the first connection with `n` edges before it. -/
def edge (l : ChainedLine) (n : Nat) : Edge :=
  { id := "e" ++ toString (n + 1), source := String.ofList l.source, target := l.target.text,
    label := String.ofList (trim l.label), arrow := some l.arrow.style }

/-- The line is a connection to the name of its first target and what is taken for its shape. -/
theorem ofText_chars (l : ChainedLine) :
    Line.ofText l.chars = .connection ⟨String.ofList l.source, l.fragment⟩ l.arrow
      (String.ofList (trim l.label)) ⟨l.target.text, l.rest.captured⟩ := by
  have hend := ne_end_of_connection? l.parts
  simp only [Line.ofText, l.keyword, if_neg hend, l.parts, ofText?_continuation]

/-- What is known after the connection that ends at the first name, when the node of that name is
replaced by what is taken for its shape. -/
def effect (l : ChainedLine) (scan : Scan) : Scan :=
  let plain := scan.step l.bare
  match l.rest.captured with
  | none => plain
  | some text =>
    { plain with
      nodes := plain.nodes.insert l.target.text (.shaped l.target.text (.ofFragment text)) }

/-- The line has its effect. -/
theorem feed_chars (l : ChainedLine) (scan : Scan) : scan.feed l.chars = l.effect scan := by
  rw [Scan.feed, ofText_chars, effect]
  cases l.rest.captured with
  | none => rfl
  | some text => simp [bare, Scan.step, Scan.declare, Scan.join, Table.insert_insertNew]

/-- One edge is added. -/
theorem edges_effect (l : ChainedLine) (scan : Scan) :
    (l.effect scan).edges = scan.edges ++ [l.edge scan.edges.length] := by
  have hplain : (scan.step l.bare).edges = scan.edges ++ [l.edge scan.edges.length] := by
    simp only [bare, Scan.step, Scan.edges_join, Scan.edges_declare]
    rfl
  rw [effect]
  cases l.rest.captured <;> exact hplain

end ChainedLine

/-- A connection to a name with an arrow behind it, as it is written, is such a line. -/
theorem exists_chainedLine (head : Connection) (hshape : head.target.shape = none)
    (hsemicolons : head.semicolons = 0) (k : Continuation) (hline : '\n' ∉ k.chars) :
    ∃ l : ChainedLine, l.chars = (Statement.connection head).chars ++ k.chars ∧
      l.bare = (Statement.connection head).line ∧ l.rest = k := by
  have htarget : head.targetChars = head.target.name.chars := by
    simp [Connection.targetChars, Mention.chars, Mention.fragment, hshape, hsemicolons]
  have hkeyword := afterGroupKeyword?_connection head k.chars
  have hparts := connection?_connection head hline
  rw [← List.append_assoc] at hkeyword hparts
  rw [htarget] at hparts
  refine ⟨⟨_, _, _, _, _, head.target.name, k, hkeyword, hparts⟩, rfl, ?_, rfl⟩
  simp [ChainedLine.bare, Statement.line, Mention.target, hshape, Name.text]

/-- **Main statement.** A target with an arrow behind it is its name, and a shape only when a shape
stands behind the name and the line ends with a closing bracket. A line with such a target gives one
edge, to that name, and nothing that stands behind the name has any effect unless all of it is taken
for a shape. Behind a written shape all of it becomes the label of a rectangle then. The lines with
such targets are all those that are recognised as connections, among them those that are written as
connections to a name. -/
theorem reads_chained (n : Name) (k : Continuation) :
    Target.ofText? (n.chars ++ k.chars) = some ⟨n.text, k.captured⟩ ∧
    (∀ w : WrittenShape, k.shapeChars = w.fragment →
      ShapedLabel.ofFragment k.kept = ⟨.rectangle, String.ofList k.kept⟩) ∧
    (∀ (l : ChainedLine) (scan : Scan), scan.feed l.chars = l.effect scan ∧
      (scan.feed l.chars).edges = scan.edges ++ [l.edge scan.edges.length]) ∧
    (∀ head : Connection, head.target.shape = none → head.semicolons = 0 →
      '\n' ∉ k.chars → ∃ l : ChainedLine,
        l.chars = (Statement.connection head).chars ++ k.chars ∧
          l.bare = (Statement.connection head).line ∧ l.rest = k) := by
  refine ⟨ofText?_continuation n k, ofFragment_kept k, fun l scan => ?_,
    fun head hshape hsemicolons hline => exists_chainedLine head hshape hsemicolons k hline⟩
  rw [l.feed_chars]
  exact ⟨rfl, l.edges_effect scan⟩

/-- A written rectangle, an arrow and another rectangle. -/
def squareBehind : Continuation where
  shape := some ⟨'[', ['x'], ']', by decide, by decide⟩
  gap := ⟨[' '], by decide⟩
  arrow := .solid
  further := " C[y]".toList

/-- A name, an arrow and a rectangle. -/
def nameBehind : Continuation := { squareBehind with shape := none }

/-- The head of a line. -/
def arrowToB : Connection where
  source := ⟨⟨['A'], by decide, by decide⟩, none⟩
  source_ne := by decide
  beforeArrow := ⟨[' '], by decide⟩
  arrow := .solid
  label := none
  beforeTarget := ⟨[' '], by decide⟩
  target := ⟨⟨['B'], by decide, by decide⟩, none⟩
  semicolons := 0

/-- The name `B` with a shape and an arrow behind it is read with all the rest of the line as its
shape, so that the label of the node changes to that text. -/
theorem captured_behind_shape :
    Target.ofText? "B[x] --> C[y]".toList = some ⟨"B", some "[x] --> C[y]".toList⟩ ∧
      ((["B(b)".toList, "A --> B[x] --> C[y]".toList].foldl Scan.feed {}).nodes.get? "B").map
        Node.label = some "[x] --> C[y]" := by
  decide

/-- Without a shape nothing behind the name counts; with one the rest of the line is its label. -/
theorem reads_chained_square :
    Target.ofText? "B --> C[y]".toList = some ⟨"B", none⟩ ∧
      ShapedLabel.ofFragment "[x] --> C[y]".toList = ⟨.rectangle, "[x] --> C[y]"⟩ ∧
      ∃ l : ChainedLine, l.chars = "A --> B[x] --> C[y]".toList ∧
        (Scan.feed {} l.chars).edges = [l.edge 0] := by
  have hname := (reads_chained ⟨['B'], by decide, by decide⟩ nameBehind).1
  obtain ⟨-, hlabel, hfeed, hline⟩ := reads_chained ⟨['B'], by decide, by decide⟩ squareBehind
  obtain ⟨l, hchars, -⟩ := hline arrowToB rfl rfl (by decide)
  exact ⟨hname, hlabel ⟨.rectangle, ['x'], by decide, by decide⟩ rfl, l, hchars, (hfeed l {}).2⟩

end Diagrams.Flowchart
