import Diagrams.Drawio.Document
import Diagrams.Proofs.Xml.Reading

/-!
# Draw.io documents are proper XML

**Main statement** (`Document.isProper_toXml`): a document is a proper element when its title is a
text, and it is written with legal characters and those of a source when its title and its cells
are (`Cell.IsWritten`).

Whatever the cells hold, their elements have fixed names and no attribute twice, so the statement
only speaks of texts. Numbers are written in digits (`isWritten_coordinateText`), and so are the
moment and the random name of a page.
-/

namespace Diagrams

variable {source : List Char}

/-! ### Texts -/

namespace Xml

/-- A text of characters that are legal can be written. -/
theorem isWritten_of_isChar {s : String} (h : ∀ c ∈ s.toList, IsChar c) : IsWritten source s :=
  fun c hc => .inl (h c hc)

/-- Two texts can be written one after the other when each of them can. -/
@[simp] theorem isWritten_append {s t : String} :
    IsWritten source (s ++ t) ↔ IsWritten source s ∧ IsWritten source t := by
  simp only [IsWritten, String.toList_append, List.forall_mem_append]

/-- A text can be written when its characters can. -/
theorem isWritten_ofList {cs : List Char} (h : ∀ c ∈ cs, IsFrom source c) :
    IsWritten source (String.ofList cs) := by
  rwa [IsWritten, String.toList_ofList]

/-- The characters of a fixed text; the text need not be taken apart to find them. -/
theorem isChar_literal {cs : List Char} (h : ∀ c ∈ cs, IsChar c) :
    ∀ c ∈ (String.ofList cs).toList, IsChar c := by
  rwa [String.toList_ofList]

/-- Fixed text may stand anywhere. -/
theorem isWritten_literal {cs : List Char} (h : ∀ c ∈ cs, IsChar c) :
    IsWritten source (String.ofList cs) :=
  isWritten_of_isChar (isChar_literal h)

/-- Digits are legal. -/
theorem isChar_of_isDigit {c : Char} (h : c.isDigit = true) : IsChar c :=
  isChar_of_isNameChar (by simp [isNameChar, h])

/-- The digits of a number can be written. -/
theorem isFrom_toDigits (n : Nat) : ∀ c ∈ Nat.toDigits 10 n, IsFrom source c := fun _ hc =>
  .inl (isChar_of_isDigit (Nat.isDigit_of_mem_toDigits (by decide) (by decide) hc))

/-- A number can be written. -/
@[simp] theorem isWritten_natRepr (n : Nat) : IsWritten source n.repr := by
  rw [IsWritten, Nat.toList_repr]
  exact isFrom_toDigits n

/-- A number with a sign can be written. -/
@[simp] theorem isWritten_intRepr (i : Int) : IsWritten source i.repr := by
  cases i with
  | ofNat n => exact isWritten_natRepr n
  | negSucc n => exact isWritten_append.mpr ⟨isWritten_literal (by decide), isWritten_natRepr _⟩

end Xml

open Xml

namespace Number

/-- An exponent can be written. -/
theorem isWritten_exponentText (e : Int) : IsWritten source (exponentText e) := by
  refine isWritten_append.mpr ⟨?_, ?_⟩
  · split <;> exact isWritten_literal (by decide)
  · have hdigits : IsWritten source (toString e.natAbs) := isWritten_natRepr _
    split
    · exact isWritten_append.mpr ⟨isWritten_literal (by decide), hdigits⟩
    · exact hdigits

/-- A positive number is written in digits, with a point and perhaps an exponent. -/
theorem isWritten_positiveText (q : Rat) : IsWritten source (positiveText q) := by
  unfold positiveText
  generalize Decimal.shortest q = d
  dsimp only
  have hdigits : ∀ c ∈ Nat.toDigits 10 d.mantissa, IsFrom source c := isFrom_toDigits d.mantissa
  have hpoint : IsFrom source '.' := .inl (by decide)
  have hzeros (n : Nat) : ∀ c ∈ List.replicate n '0', IsFrom source c := by
    intro c hc
    rw [List.eq_of_mem_replicate hc]
    exact .inl (by decide)
  have hzero : IsWritten source "0." := isWritten_literal (by decide)
  have hend : IsWritten source ".0" := isWritten_literal (by decide)
  generalize Nat.toDigits 10 d.mantissa = digits at hdigits ⊢
  have htake (n : Nat) : ∀ c ∈ digits.take n, IsFrom source c :=
    fun c hc => hdigits c (List.mem_of_mem_take hc)
  have hdrop (n : Nat) : ∀ c ∈ digits.drop n, IsFrom source c :=
    fun c hc => hdigits c (List.mem_of_mem_drop hc)
  split
  · refine isWritten_append.mpr ⟨isWritten_ofList ?_, isWritten_exponentText _⟩
    rw [List.forall_mem_append]
    refine ⟨htake 1, ?_⟩
    split
    · exact fun c hc => absurd hc List.not_mem_nil
    · exact List.forall_mem_cons.mpr ⟨hpoint, hdrop 1⟩
  · split
    · exact isWritten_append.mpr
        ⟨hzero, isWritten_ofList (List.forall_mem_append.mpr ⟨hzeros _, hdigits⟩)⟩
    · split
      · exact isWritten_ofList (List.forall_mem_append.mpr
          ⟨htake _, List.forall_mem_cons.mpr ⟨hpoint, hdrop _⟩⟩)
      · exact isWritten_append.mpr
          ⟨isWritten_ofList (List.forall_mem_append.mpr ⟨hdigits, hzeros _⟩), hend⟩

/-- A coordinate can be written. -/
@[simp] theorem isWritten_coordinateText (q : Rat) : IsWritten source (coordinateText q) := by
  unfold coordinateText realText
  dsimp only
  split
  · exact isWritten_intRepr _
  · split
    · exact isWritten_literal (by decide)
    · split
      · exact isWritten_append.mpr ⟨isWritten_literal (by decide), isWritten_positiveText _⟩
      · exact isWritten_positiveText _

end Number

open Number

namespace Drawio

/-! ### What is drawn -/

/-- The texts of a box are written with legal characters and characters of the source. -/
structure Vertex.IsWritten (source : List Char) (v : Vertex) : Prop where
  /-- Its name. -/
  id : Xml.IsWritten source v.id
  /-- The text in it. -/
  label : Xml.IsWritten source v.label
  /-- Style text. -/
  style : Xml.IsWritten source v.style
  /-- The cell in which it lies. -/
  container : ∀ s ∈ v.container, Xml.IsWritten source s

/-- So are the names of the cells that are joined. -/
def Ends.IsWritten (source : List Char) : Ends → Prop
  | cells s t => Xml.IsWritten source s ∧ Xml.IsWritten source t
  | points .. => True

/-- The texts of a line are written with legal characters and characters of the source. -/
structure Line.IsWritten (source : List Char) (l : Line) : Prop where
  /-- Its name. -/
  id : Xml.IsWritten source l.id
  /-- The text on it. -/
  label : Xml.IsWritten source l.label
  /-- Style text. -/
  style : Xml.IsWritten source l.style
  /-- What it joins. -/
  ends : l.ends.IsWritten source

/-- So are those of a cell. -/
def Cell.IsWritten (source : List Char) : Cell → Prop
  | vertex v => v.IsWritten source
  | line l => l.IsWritten source

/-- A box that lies on the page itself has no other texts. -/
theorem Vertex.isWritten_onPage {v : Vertex} (hid : Xml.IsWritten source v.id)
    (hlabel : Xml.IsWritten source v.label) (hstyle : Xml.IsWritten source v.style)
    (hpage : v.container = none) : v.IsWritten source where
  id := hid
  label := hlabel
  style := hstyle
  container := fun s hs => absurd (hpage ▸ hs) (Option.not_mem_none s)

/-! ### Elements -/

/-- An element can have attributes of these names. -/
def AreKeys (keys : List String) : Prop := (∀ k ∈ keys, isName k.toList = true) ∧ keys.Nodup

instance (keys : List String) : Decidable (AreKeys keys) :=
  inferInstanceAs (Decidable (_ ∧ _))

/-- An element with texts in its attributes is proper when the elements in it are. -/
theorem isProper_tag {name : String} {attributes : List (String × String)} {children : List Xml}
    (hname : isName name.toList = true) (keys : List String) (hkeys : AreKeys keys)
    (hattributes : attributes.map (·.1) = keys)
    (htexts : ∀ a ∈ attributes, Xml.IsWritten source a.2)
    (hchildren : ∀ x ∈ children, IsProper source x) :
    IsProper source (.tag name attributes children) := by
  subst hattributes
  refine .element hname ?_ ?_ ?_ hchildren
  · rw [List.forall_mem_map]
    exact List.forall_mem_map.mp hkeys.1
  · rw [List.map_map]
    exact hkeys.2
  · rw [List.forall_mem_map]
    exact fun a ha => ⟨a.2, rfl, htexts a ha⟩

/-- An element without elements in it. -/
theorem isProper_leaf {name : String} {attributes : List (String × String)}
    (hname : isName name.toList = true) (keys : List String) (hkeys : AreKeys keys)
    (hattributes : attributes.map (·.1) = keys)
    (htexts : ∀ a ∈ attributes, Xml.IsWritten source a.2) :
    IsProper source (.tag name attributes []) :=
  isProper_tag hname keys hkeys hattributes htexts fun _ hx => absurd hx List.not_mem_nil

/-- A point is written as a proper element. -/
theorem Point.isProper_toXml (p : Point) {role : Option String}
    (h : ∀ r ∈ role, Xml.IsWritten source r) : IsProper source (p.toXml role) := by
  cases role with
  | none => exact isProper_leaf rfl ["x", "y"] (by decide) rfl (by simp)
  | some r => exact isProper_leaf rfl ["x", "y", "as"] (by decide) rfl (by simpa using h)

/-- The geometry of a box is a proper element. -/
theorem Vertex.isProper_geometry (v : Vertex) : IsProper source v.geometry := by
  unfold Vertex.geometry
  split
  · exact isProper_leaf rfl ["x", "y", "width", "height", "as"] (by decide) rfl
      (by simp (disch := decide) [isWritten_of_isChar])
  · exact isProper_leaf rfl ["y", "width", "height", "as"] (by decide) rfl
      (by simp (disch := decide) [isWritten_of_isChar])

/-- A box is written as a proper element. -/
theorem Vertex.isProper_toXml {v : Vertex} (h : v.IsWritten source) :
    IsProper source v.toXml := by
  have hparent : Xml.IsWritten source (v.container.getD layer) := by
    cases hc : v.container with
    | none => exact isWritten_literal (by decide)
    | some s => exact h.container s hc
  refine isProper_tag rfl ["id", "value", "style", "vertex", "parent"] (by decide) rfl ?_
    (List.forall_mem_singleton.mpr v.isProper_geometry)
  simp (disch := decide) [h.id, h.label, h.style, isWritten_of_isChar, hparent]

/-- The geometry of a line is a proper element. -/
theorem Line.isProper_geometry (l : Line) : IsProper source l.geometry := by
  have hpoint (p : Point) (s : String) (hs : ∀ c ∈ s.toList, IsChar c) :
      IsProper source (p.toXml (some s)) :=
    p.isProper_toXml fun r hr => Option.some.inj hr ▸ isWritten_of_isChar hs
  refine isProper_tag rfl ["relative", "as"] (by decide) rfl ?_ ?_
  · simp (disch := decide) [isWritten_of_isChar]
  · rw [List.forall_mem_append, List.forall_mem_append]
    refine ⟨⟨?_, ?_⟩, ?_⟩
    · split
      · exact fun x hx => absurd hx List.not_mem_nil
      · refine List.forall_mem_singleton.mpr (isProper_tag rfl ["as"] (by decide) rfl ?_ ?_)
        · simp (disch := decide) [isWritten_of_isChar]
        · rw [List.forall_mem_map]
          exact fun p _ => p.isProper_toXml fun r hr => absurd hr (Option.not_mem_none r)
    · cases l.ends with
      | cells s t => exact fun x hx => absurd hx List.not_mem_nil
      | points s t =>
        exact List.forall_mem_cons.mpr ⟨hpoint s _ (by decide),
          List.forall_mem_singleton.mpr (hpoint t _ (by decide))⟩
    · rw [List.forall_mem_map]
      exact fun p _ => hpoint p _ (by decide)

/-- A line is written as a proper element. -/
theorem Line.isProper_toXml {l : Line} (h : l.IsWritten source) : IsProper source l.toXml := by
  have hgeometry : ∀ x ∈ [l.geometry], IsProper source x :=
    List.forall_mem_singleton.mpr l.isProper_geometry
  have hends := h.ends
  unfold Line.toXml
  cases he : l.ends with
  | points s t =>
    refine isProper_tag rfl ["id", "value", "style", "edge", "parent"] (by decide) rfl ?_ hgeometry
    simp (disch := decide) [h.id, h.label, h.style, isWritten_of_isChar, layer, Ends.attributes]
  | cells s t =>
    rw [he] at hends
    refine isProper_tag rfl ["id", "value", "style", "edge", "parent", "source", "target"]
      (by decide) rfl ?_ hgeometry
    simp (disch := decide) [h.id, h.label, h.style, isWritten_of_isChar, layer, Ends.attributes,
      hends.1, hends.2]

/-- A cell is written as a proper element. -/
theorem Cell.isProper_toXml {c : Cell} (h : c.IsWritten source) : IsProper source c.toXml := by
  cases c with
  | vertex v => exact Vertex.isProper_toXml h
  | line l => exact Line.isProper_toXml h

/-! ### Documents -/

/-- A number with leading zeros can be written. -/
theorem isWritten_padded (width n : Nat) : Xml.IsWritten source (padded width n) := by
  refine isWritten_ofList (List.forall_mem_append.mpr ⟨fun c hc => ?_, isFrom_toDigits n⟩)
  rw [List.eq_of_mem_replicate hc]
  exact .inl (by decide)

/-- A moment can be written. -/
theorem isWritten_moment (m : Moment) : Xml.IsWritten source m.text := by
  simp (disch := decide) [Moment.text, isWritten_padded, isWritten_of_isChar]

/-- Random names are made of letters and digits. -/
theorem isWritten_stampName (s : Stamp) : Xml.IsWritten source s.name := by
  have halphabet : ∀ c ∈ 'a' :: alphabet, IsChar c := by decide
  refine isWritten_ofList (List.forall_mem_map.mpr fun k _ => .inl (halphabet _ ?_))
  unfold picked
  rw [List.getD_eq_getElem?_getD]
  cases h : alphabet[(s.picks.getD k 0 % alphabet.length).toNat]? with
  | none => exact List.mem_cons_self
  | some c => exact List.mem_cons_of_mem _ (List.mem_of_getElem? h)

/-- **Main statement.** A document whose title is a text is a proper element, written with legal
characters and those with which its title and its cells are written. -/
theorem Document.isProper_toXml {doc : Document} {title : String} (htitle : doc.title = .text title)
    (hwritten : Xml.IsWritten source title) (hcells : ∀ c ∈ doc.cells, c.IsWritten source) :
    IsProper source doc.toXml := by
  have hbase : ∀ x ∈ baseCells, IsProper source x := by
    refine List.forall_mem_cons.mpr ⟨?_, List.forall_mem_singleton.mpr ?_⟩
    · exact isProper_leaf rfl ["id"] (by decide) rfl
        (by simp (disch := decide) [isWritten_of_isChar])
    · exact isProper_leaf rfl ["id", "parent"] (by decide) rfl
        (by simp (disch := decide) [layer, isWritten_of_isChar])
  have hroot : IsProper source (.tag "root" [] (baseCells ++ doc.cells.map Cell.toXml)) := by
    refine isProper_tag rfl [] (by decide) rfl (fun a ha => absurd ha List.not_mem_nil) ?_
    rw [List.forall_mem_append, List.forall_mem_map]
    exact ⟨hbase, fun c hc => Cell.isProper_toXml (hcells c hc)⟩
  have hmodel : IsProper source (.tag "mxGraphModel" doc.settings
      [.tag "root" [] (baseCells ++ doc.cells.map Cell.toXml)]) := by
    refine isProper_tag rfl ["dx", "dy", "grid", "gridSize", "guides", "tooltips", "connect",
      "arrows", "fold", "page", "pageScale", "pageWidth", "pageHeight", "math", "shadow"]
      (by decide) rfl ?_ (List.forall_mem_singleton.mpr hroot)
    simp (disch := decide) [Document.settings, isWritten_of_isChar]
  have hdiagram : IsProper source (.element "diagram"
      [("name", doc.title), ("id", .text doc.stamp.name)]
      [.tag "mxGraphModel" doc.settings
        [.tag "root" [] (baseCells ++ doc.cells.map Cell.toXml)]]) := by
    refine .element rfl ?_ ?_ ?_ (List.forall_mem_singleton.mpr hmodel)
    · simp only [List.forall_mem_cons, List.not_mem_nil, false_implies, implies_true, and_true]
      exact ⟨rfl, rfl⟩
    · show ["name", "id"].Nodup
      decide
    · simp only [List.forall_mem_cons, List.not_mem_nil, false_implies, implies_true, and_true]
      exact ⟨⟨title, htitle, hwritten⟩, ⟨_, rfl, isWritten_stampName doc.stamp⟩⟩
  refine isProper_tag rfl ["host", "modified", "agent", "version"] (by decide) rfl ?_
    (List.forall_mem_singleton.mpr hdiagram)
  simp (disch := decide) [isWritten_moment, isWritten_of_isChar]

end Drawio

end Diagrams
