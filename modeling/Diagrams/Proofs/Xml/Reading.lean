import Diagrams.Text.Lines
import Diagrams.Xml

/-!
# Written XML reads back

A reader of XML 1.0 that knows nothing of how documents are written here, and the proof that it
finds every proper element again.

**Main statement** (`IsProper.read_text`): a proper element, written as a document, is read as
itself when the document holds no character that XML forbids.

* `Xml.IsChar` — the characters that a document may hold.
* `Xml.Reader` — what has been read so far: the open elements, the innermost first, and the place in
  the markup. `Reader.step` takes one character, and refuses what XML does not allow there.
* `Xml.read` — the root of a document.
* `Xml.IsProper` — elements that a document can hold: names are names, no attribute is given twice,
  and attributes hold texts.

The reader does not take every document, only those without text between tags, without comments and
the like, and with values in double quotes. What it takes is well-formed, since an end tag must name
the innermost open element, a value ends at the next quote and holds no `<`, and `&` starts one of
the known references. It reads values as XML says: white space in them counts as blanks, unless it
is written as a reference.

A text written in a value is read character by character (`Reads.escaped`), so the proof for an
element needs nothing about the text. Elements are followed by induction: reading the written form
of one adds it to the innermost open element (`IsProper.reads_write`).
-/

namespace Diagrams.Xml

/-! ### Characters -/

/-- A character that a document may hold: tabs and line ends, and everything from the blank on
except the last two code points of the first plane. Surrogates are no characters. -/
def IsChar (c : Char) : Prop :=
  c = '\t' ∨ c = '\n' ∨ c = '\r' ∨ 0x20 ≤ c.toNat ∧ c.toNat ≠ 0xFFFE ∧ c.toNat ≠ 0xFFFF

instance : DecidablePred IsChar := fun c =>
  inferInstanceAs (Decidable (c = '\t' ∨ c = '\n' ∨ c = '\r' ∨
    0x20 ≤ c.toNat ∧ c.toNat ≠ 0xFFFE ∧ c.toNat ≠ 0xFFFF))

/-- White space between tags and attributes. -/
def isSpace (c : Char) : Bool := c == ' ' || c == '\t' || c == '\n' || c == '\r'

/-- A character with which a name can start; names hold ASCII characters here. -/
def isNameStart (c : Char) : Bool := c.isAlpha || c == '_'

/-- A character of a name. -/
def isNameChar (c : Char) : Bool := isNameStart c || c.isDigit || c == '-' || c == '.'

/-- Whether the characters make up a name. -/
def isName : List Char → Bool
  | [] => false
  | c :: cs => isNameStart c && cs.all isNameChar

/-- The characters of markup around names. -/
def marks : List Char := [' ', '\t', '\n', '\r', '>', '/', '=']

/-- No mark is in a name. -/
theorem notMem_marks {c : Char} (h : isNameChar c = true) : c ∉ marks := by
  have hmarks : ∀ d ∈ marks, isNameChar d = false := by decide
  intro hc
  rw [hmarks c hc] at h
  cases h

/-- A name starts with a character that may start one, and holds characters of names only. -/
theorem exists_cons_of_isName {name : List Char} (h : isName name = true) :
    ∃ c cs, name = c :: cs ∧ isNameStart c = true ∧ ∀ d ∈ c :: cs, isNameChar d = true := by
  cases name with
  | nil => cases h
  | cons c cs =>
    simp only [isName, Bool.and_eq_true, List.all_eq_true] at h
    have hc : isNameChar c = true := by simp [isNameChar, h.1]
    exact ⟨c, cs, rfl, h.1, List.forall_mem_cons.mpr ⟨hc, h.2⟩⟩

/-- The predefined entities. -/
def entities : List (List Char × Char) :=
  [("amp".toList, '&'), ("lt".toList, '<'), ("gt".toList, '>'), ("quot".toList, '"'),
   ("apos".toList, '\x27')]

/-- The character for which a reference stands: an entity, or a character by its decimal number. -/
def referred? : List Char → Option Char
  | '#' :: digits =>
    let c := Char.ofNat (Nat.ofDigitChars 10 digits 0)
    if digits ≠ [] ∧ digits.all Char.isDigit = true ∧ IsChar c then some c else none
  | name => entities.lookup name

/-! ### The reader -/

/-- An element whose end has not been read. -/
structure Open where
  /-- The name. -/
  name : List Char
  /-- The attributes that have been read. -/
  attributes : List (String × Value) := []
  /-- The elements that have been read in it. -/
  children : List Xml := []

namespace Open

/-- The element, when it ends here. -/
def toXml (f : Open) : Xml := .element (String.ofList f.name) f.attributes f.children

/-- One more element in it. -/
def add (f : Open) (x : Xml) : Open := { f with children := f.children ++ [x] }

/-- One more attribute, which must not be given twice. -/
def give? (f : Open) (key value : List Char) : Option Open :=
  if String.ofList key ∈ f.attributes.map (·.1) then none
  else
    let a := (String.ofList key, Value.text (String.ofList value))
    some { f with attributes := f.attributes ++ [a] }

end Open

/-- What has just been read of a start tag. -/
inductive Place where
  /-- A part of its name. -/
  | name
  /-- White space. -/
  | gap
  /-- The value of an attribute. -/
  | value
  deriving DecidableEq

/-- The place in the markup. -/
inductive Mode where
  /-- Between tags. -/
  | content
  /-- After the `<` of a tag. -/
  | opened
  /-- In the name of an end tag. -/
  | closing (name : List Char)
  /-- In a start tag. -/
  | tag (t : Open) (place : Place)
  /-- In the name of an attribute. -/
  | key (t : Open) (key : List Char)
  /-- After the equals sign of an attribute. -/
  | equals (t : Open) (key : List Char)
  /-- In the value of an attribute. -/
  | value (t : Open) (key value : List Char)
  /-- In a reference in a value. -/
  | reference (t : Open) (key value name : List Char)
  /-- After the slash at the end of the tag of an empty element. -/
  | emptying (t : Open)

/-- What has been read: the place, and the open elements, the innermost first. The last of them
stands for the document. -/
structure Reader where
  /-- The place. -/
  mode : Mode
  /-- The open elements. -/
  stack : List Open

namespace Reader

/-- Nothing has been read. -/
def start : Reader := ⟨.content, [⟨[], [], []⟩]⟩

/-- The innermost open element ends, and it must have the name. It becomes a child of the next. -/
def close? (name : List Char) : List Open → Option Reader
  | f :: g :: fs => if f.name = name then some ⟨.content, g.add f.toXml :: fs⟩ else none
  | _ => none

/-- An element without children is complete. -/
def addEmpty? (t : Open) : List Open → Option Reader
  | f :: fs => some ⟨.content, f.add t.toXml :: fs⟩
  | [] => none

/-- One more character. -/
def step (r : Reader) (c : Char) : Option Reader :=
  match r.mode with
  | .content =>
    if c = '<' then some { r with mode := .opened } else if isSpace c then some r else none
  | .opened =>
    if c = '/' then some { r with mode := .closing [] }
    else if isNameStart c then some { r with mode := .tag ⟨[c], [], []⟩ .name }
    else none
  | .closing name =>
    if c = '>' then close? name r.stack
    else if isNameChar c then some { r with mode := .closing (name ++ [c]) }
    else none
  | .tag t place =>
    if isSpace c then some { r with mode := .tag t .gap }
    else if c = '>' then some ⟨.content, t :: r.stack⟩
    else if c = '/' then some { r with mode := .emptying t }
    else
      match place with
      | .name =>
        if isNameChar c then some { r with mode := .tag { t with name := t.name ++ [c] } .name }
        else none
      | .gap => if isNameStart c then some { r with mode := .key t [c] } else none
      | .value => none
  | .key t key =>
    if c = '=' then some { r with mode := .equals t key }
    else if isNameChar c then some { r with mode := .key t (key ++ [c]) }
    else none
  | .equals t key => if c = '"' then some { r with mode := .value t key [] } else none
  | .value t key value =>
    if c = '"' then (t.give? key value).map fun t => { r with mode := .tag t .value }
    else if c = '&' then some { r with mode := .reference t key value [] }
    else if c = '<' ∨ c = '\r' then none
    else some { r with mode := .value t key (value ++ [if isSpace c then ' ' else c]) }
  | .reference t key value name =>
    if c = ';' then
      (referred? name).map fun d => { r with mode := .value t key (value ++ [d]) }
    else some { r with mode := .reference t key value (name ++ [c]) }
  | .emptying t => if c = '>' then addEmpty? t r.stack else none

/-- The root, when all of it has been read and nothing else. -/
def root? : Reader → Option Xml
  | ⟨.content, [⟨_, _, [x]⟩]⟩ => some x
  | _ => none

end Reader

/-- The root of a document, when it is well-formed. -/
def read (s : String) : Option Xml := do
  let cs ← Text.after? declaration.toList s.toList
  if cs.all (IsChar ·) then (← cs.foldlM Reader.step .start).root? else none

/-! ### Proper elements -/

/-- A character that XML allows, or one of the source. -/
def IsFrom (source : List Char) (c : Char) : Prop := IsChar c ∨ c ∈ source

/-- A text of legal characters and characters of the source. -/
def IsWritten (source : List Char) (s : String) : Prop := ∀ c ∈ s.toList, IsFrom source c

/-- An element that a document can hold. Its texts are written with legal characters and characters
of the source. -/
inductive IsProper (source : List Char) : Xml → Prop
  | element {name : String} {attributes : List (String × Value)} {children : List Xml}
    (isName_name : isName name.toList = true)
    (isName_keys : ∀ a ∈ attributes, isName a.1.toList = true)
    (nodup_keys : (attributes.map (·.1)).Nodup)
    (texts : ∀ a ∈ attributes, ∃ s, a.2 = .text s ∧ IsWritten source s)
    (proper : ∀ x ∈ children, IsProper source x) :
    IsProper source (.element name attributes children)

/-! ### Runs of the reader -/

open Reader

/-- The characters lead the reader from one state to another. -/
def Reads (r : Reader) (cs : List Char) (r' : Reader) : Prop := cs.foldlM step r = some r'

variable {r r' r'' : Reader} {cs ds : List Char} {c : Char} {fs : List Open} {t : Open}
  {key value : List Char}

namespace Reads

/-- Nothing is read without characters. -/
theorem nil (r : Reader) : Reads r [] r := rfl

/-- A character is read, and then the others. -/
theorem cons (h : step r c = some r') (h' : Reads r' cs r'') : Reads r (c :: cs) r'' := by
  rw [Reads, List.foldlM_cons, h]
  exact h'

/-- Characters are read one after the other. -/
theorem append (h : Reads r cs r') (h' : Reads r' ds r'') : Reads r (cs ++ ds) r'' := by
  rw [Reads, List.foldlM_append, h]
  exact h'

/-- One character is read in one step. -/
theorem single (h : step r c = some r') : Reads r [c] r' := .cons h (.nil r')

/-- Characters of one kind are collected one by one. -/
theorem run (mode : List Char → Mode) {p : Char → Bool}
    (hstep : ∀ name c, p c = true → step ⟨mode name, fs⟩ c = some ⟨mode (name ++ [c]), fs⟩)
    (hcs : ∀ c ∈ cs, p c = true) (name : List Char) :
    Reads ⟨mode name, fs⟩ cs ⟨mode (name ++ cs), fs⟩ := by
  induction cs generalizing name with
  | nil => simpa using Reads.nil _
  | cons c cs ih =>
    refine .cons (hstep name c (hcs c List.mem_cons_self)) ?_
    simpa using ih (fun d hd => hcs d (List.mem_cons_of_mem c hd)) (name ++ [c])

/-- White space between tags is passed over. -/
theorem spaces (hcs : ∀ c ∈ cs, isSpace c = true) : Reads ⟨.content, fs⟩ cs ⟨.content, fs⟩ := by
  induction cs with
  | nil => exact .nil _
  | cons c cs ih =>
    have hspace := hcs c List.mem_cons_self
    have hne : c ≠ '<' := by
      rintro rfl
      cases hspace
    refine .cons ?_ (ih fun d hd => hcs d (List.mem_cons_of_mem c hd))
    simp [step, hne, hspace]

/-- A new line is read between elements, whatever the indentation is. -/
theorem newLine (depth : Nat) : Reads ⟨.content, fs⟩ (Xml.newLine depth) ⟨.content, fs⟩ := by
  refine spaces fun c hc => ?_
  rcases List.mem_cons.mp hc with rfl | hc
  · rfl
  · rw [List.eq_of_mem_replicate hc]
    rfl

end Reads

/-! ### Values -/

/-- A character of a text is read as itself from its written form. -/
theorem Reads.escaped (c : Char) :
    Reads ⟨.value t key value, fs⟩ (Xml.escaped c) ⟨.value t key (value ++ [c]), fs⟩ := by
  by_cases h : c ∈ escapes
  · have hcases : ∀ d ∈ escapes,
        Reads ⟨.value t key value, fs⟩ (Xml.escaped d) ⟨.value t key (value ++ [d]), fs⟩ := by
      simp only [escapes, List.forall_mem_cons, List.not_mem_nil, false_implies, implies_true,
        and_true]
      exact ⟨rfl, rfl, rfl, rfl, rfl, rfl, rfl⟩
    exact hcases c h
  · rw [escaped_of_notMem h]
    simp only [escapes, List.mem_cons, List.not_mem_nil, or_false, not_or] at h
    obtain ⟨hamp, hlt, -, hquote, hcr, hnl, htab⟩ := h
    refine .single ?_
    have hblank : (if isSpace c then ' ' else c) = c := by
      by_cases hc : c = ' ' <;> simp [isSpace, hc, hcr, hnl, htab]
    simp only [step, if_neg hquote, if_neg hamp, hlt, hcr, or_self, if_false, hblank]

/-- A text is read from its written form. -/
theorem Reads.escape (s : String) :
    Reads ⟨.value t key value, fs⟩ (Xml.escape s) ⟨.value t key (value ++ s.toList), fs⟩ := by
  unfold Xml.escape
  generalize s.toList = cs
  induction cs generalizing value with
  | nil => simpa using Reads.nil _
  | cons c cs ih =>
    rw [List.flatMap_cons]
    simpa using (Reads.escaped c).append ih

/-! ### Tags -/

/-- The element whose tag is read, with more attributes. -/
def Open.with (t : Open) (attributes : List (String × Value)) : Open :=
  { t with attributes := t.attributes ++ attributes }

/-- An attribute is read from its written form. -/
theorem Reads.attribute {name s : String} (hname : isName name.toList = true)
    (hnew : name ∉ t.attributes.map (·.1)) (place : Place) :
    Reads ⟨.tag t place, fs⟩ (writeAttribute (name, .text s))
      ⟨.tag (t.with [(name, .text s)]) .value, fs⟩ := by
  obtain ⟨c, cs, hcs, hstart, hchars⟩ := exists_cons_of_isName hname
  obtain ⟨hc, hrest⟩ := List.forall_mem_cons.mp hchars
  have hgap : Reads ⟨.tag t place, fs⟩ [' '] ⟨.tag t .gap, fs⟩ := .single rfl
  have hfirst : Reads ⟨.tag t .gap, fs⟩ [c] ⟨.key t [c], fs⟩ := by
    refine .single ?_
    have hmarks := notMem_marks hc
    simp only [marks, List.mem_cons, List.not_mem_nil, or_false, not_or] at hmarks
    simp [step, isSpace, hmarks, hstart]
  have hkey : Reads ⟨.key t [c], fs⟩ cs ⟨.key t ([c] ++ cs), fs⟩ := by
    refine Reads.run (.key t) (p := isNameChar) (fun key d hd => ?_) hrest [c]
    have hne : d ≠ '=' := fun h => notMem_marks hd (by simp [marks, h])
    simp [step, hne, hd]
  have hequals : Reads ⟨.key t ([c] ++ cs), fs⟩ ['=', '"'] ⟨.value t name.toList [], fs⟩ := by
    rw [hcs]
    exact .cons rfl (.single rfl)
  have hvalue : Reads ⟨.value t name.toList [], fs⟩ (Xml.escape s)
      ⟨.value t name.toList s.toList, fs⟩ := Reads.escape s
  have hquote : Reads ⟨.value t name.toList s.toList, fs⟩ ['"']
      ⟨.tag (t.with [(name, .text s)]) .value, fs⟩ := by
    refine .single ?_
    simp [step, Open.give?, Open.with, hnew]
  have hwrite : writeAttribute (name, .text s) =
      [' '] ++ [c] ++ cs ++ ['=', '"'] ++ Xml.escape s ++ ['"'] := by
    simp [writeAttribute, Value.write, hcs]
  rw [hwrite]
  exact ((((hgap.append hfirst).append hkey).append hequals).append hvalue).append hquote

/-- Attributes with names of their own are read from their written form. -/
theorem Reads.attributes {source : List Char} {attributes : List (String × Value)}
    (hnames : ∀ a ∈ attributes, isName a.1.toList = true)
    (htexts : ∀ a ∈ attributes, ∃ s, a.2 = .text s ∧ IsWritten source s)
    (hnodup : ((t.attributes ++ attributes).map (·.1)).Nodup) (place : Place) :
    ∃ place', Reads ⟨.tag t place, fs⟩ (attributes.flatMap writeAttribute)
      ⟨.tag (t.with attributes) place', fs⟩ := by
  induction attributes generalizing t place with
  | nil => exact ⟨place, by simpa [Open.with] using Reads.nil _⟩
  | cons a rest ih =>
    obtain ⟨name, value⟩ := a
    obtain ⟨s, rfl, -⟩ := htexts _ List.mem_cons_self
    have hnew : name ∉ t.attributes.map (·.1) := by
      intro hmem
      rw [List.map_append] at hnodup
      exact (List.nodup_append.mp hnodup).2.2 name hmem name (by simp) rfl
    have hfirst : Reads ⟨.tag t place, fs⟩ (writeAttribute (name, .text s))
        ⟨.tag (t.with [(name, .text s)]) .value, fs⟩ :=
      Reads.attribute (hnames _ List.mem_cons_self) hnew place
    obtain ⟨place', hrest⟩ := ih (t := t.with [(name, .text s)])
      (fun b hb => hnames b (List.mem_cons_of_mem _ hb))
      (fun b hb => htexts b (List.mem_cons_of_mem _ hb))
      (by simpa [Open.with] using hnodup) .value
    refine ⟨place', ?_⟩
    rw [List.flatMap_cons]
    simpa [Open.with] using hfirst.append hrest

/-- The head of a start tag opens an element. -/
theorem Reads.head {source : List Char} {name : String} {attributes : List (String × Value)}
    (hname : isName name.toList = true) (hnames : ∀ a ∈ attributes, isName a.1.toList = true)
    (hnodup : (attributes.map (·.1)).Nodup)
    (htexts : ∀ a ∈ attributes, ∃ s, a.2 = .text s ∧ IsWritten source s) :
    ∃ place, Reads ⟨.content, fs⟩ (writeHead name attributes)
      ⟨.tag ⟨name.toList, attributes, []⟩ place, fs⟩ := by
  obtain ⟨c, cs, hcs, hstart, hchars⟩ := exists_cons_of_isName hname
  obtain ⟨hc, hrest⟩ := List.forall_mem_cons.mp hchars
  have hopened : Reads ⟨.content, fs⟩ ['<', c] ⟨.tag ⟨[c], [], []⟩ .name, fs⟩ := by
    refine .cons rfl (.single ?_)
    have hne : c ≠ '/' := fun h => notMem_marks hc (by simp [marks, h])
    simp [step, hne, hstart]
  have hname : Reads ⟨.tag ⟨[c], [], []⟩ .name, fs⟩ cs ⟨.tag ⟨[c] ++ cs, [], []⟩ .name, fs⟩ := by
    refine Reads.run (fun n => .tag ⟨n, [], []⟩ .name) (p := isNameChar)
      (fun key d hd => ?_) hrest [c]
    have hmarks := notMem_marks hd
    simp only [marks, List.mem_cons, List.not_mem_nil, or_false, not_or] at hmarks
    simp [step, isSpace, hmarks, hd]
  obtain ⟨place, hattributes⟩ : ∃ place, Reads ⟨.tag ⟨name.toList, [], []⟩ .name, fs⟩
      (attributes.flatMap writeAttribute)
      ⟨.tag (Open.with ⟨name.toList, [], []⟩ attributes) place, fs⟩ :=
    Reads.attributes hnames htexts (by simpa using hnodup) .name
  refine ⟨place, ?_⟩
  have hwrite : writeHead name attributes =
      ['<', c] ++ cs ++ attributes.flatMap writeAttribute := by
    simp [writeHead, hcs]
  rw [hwrite]
  refine (hopened.append hname).append ?_
  simpa [hcs, Open.with] using hattributes

/-- An end tag closes the element of its name. -/
theorem Reads.endTag {f g : Open} (hname : isName f.name = true) :
    Reads ⟨.content, f :: g :: fs⟩ (['<', '/'] ++ f.name ++ ['>'])
      ⟨.content, g.add f.toXml :: fs⟩ := by
  have hall : ∀ c ∈ f.name, isNameChar c = true := by
    obtain ⟨c, cs, hcs, -, hchars⟩ := exists_cons_of_isName hname
    exact hcs ▸ hchars
  have hrun : Reads ⟨.closing [], f :: g :: fs⟩ f.name ⟨.closing f.name, f :: g :: fs⟩ := by
    refine Reads.run .closing (p := isNameChar) (fun key d hd => ?_) hall []
    have hne : d ≠ '>' := fun h => notMem_marks hd (by simp [marks, h])
    simp [step, hne, hd]
  have hopened : Reads ⟨.content, f :: g :: fs⟩ ['<', '/'] ⟨.closing [], f :: g :: fs⟩ :=
    .cons rfl (.single rfl)
  have hclose : Reads ⟨.closing f.name, f :: g :: fs⟩ ['>'] ⟨.content, g.add f.toXml :: fs⟩ := by
    refine .single ?_
    simp [step, close?]
  exact (hopened.append hrun).append hclose

/-! ### Elements -/

variable {source : List Char} {x : Xml}

/-- Elements become children one by one when each of them does. -/
theorem Reads.more {children : List Xml}
    (h : ∀ x ∈ children, ∀ (depth : Nat) (f : Open) (fs : List Open),
      Reads ⟨.content, f :: fs⟩ (x.write depth) ⟨.content, f.add x :: fs⟩)
    (depth : Nat) (f : Open) (fs : List Open) :
    Reads ⟨.content, f :: fs⟩ (writeMore depth children)
      ⟨.content, { f with children := f.children ++ children } :: fs⟩ := by
  induction children generalizing f with
  | nil => simpa [writeMore] using Reads.nil _
  | cons x rest ih =>
    rw [writeMore]
    have hx := h x List.mem_cons_self depth f fs
    have hrest := ih (fun y hy => h y (List.mem_cons_of_mem x hy)) (f.add x)
    simpa [Open.add] using ((Reads.newLine depth).append hx).append hrest

/-- A proper element is read from its written form, at any depth, as a child of the innermost open
element. -/
theorem IsProper.reads_write (h : IsProper source x) :
    ∀ (depth : Nat) (f : Open) (fs : List Open),
      Reads ⟨.content, f :: fs⟩ (x.write depth) ⟨.content, f.add x :: fs⟩ := by
  induction h with
  | @element name attributes children hname hnames hnodup htexts _ ih =>
    intro depth f fs
    obtain ⟨place, hhead⟩ : ∃ place, Reads ⟨.content, f :: fs⟩ (writeHead name attributes)
        ⟨.tag ⟨name.toList, attributes, []⟩ place, f :: fs⟩ :=
      Reads.head hname hnames hnodup htexts
    cases children with
    | nil =>
      have hend : Reads ⟨.tag ⟨name.toList, attributes, []⟩ place, f :: fs⟩ [' ', '/', '>']
          ⟨.content, f.add (.element name attributes []) :: fs⟩ := by
        refine .cons rfl (.cons rfl (.single ?_))
        simp [step, addEmpty?, Open.toXml]
      exact hhead.append hend
    | cons child rest =>
      have hopen : Reads ⟨.tag ⟨name.toList, attributes, []⟩ place, f :: fs⟩ ['>']
          ⟨.content, ⟨name.toList, attributes, []⟩ :: f :: fs⟩ := .single rfl
      have hchildren := Reads.more ih (depth + 1) ⟨name.toList, attributes, []⟩ (f :: fs)
      have hclose : Reads ⟨.content, ⟨name.toList, attributes, child :: rest⟩ :: f :: fs⟩
          (['<', '/'] ++ name.toList ++ ['>'])
          ⟨.content, f.add (Open.toXml ⟨name.toList, attributes, child :: rest⟩) :: fs⟩ :=
        Reads.endTag hname
      have hall := (((hhead.append hopen).append hchildren).append (Reads.newLine depth)).append
        hclose
      simpa [write, writeMore, Open.toXml] using hall

/-! ### Characters of documents -/

/-- Characters of names are legal. -/
theorem isChar_of_isNameChar (h : isNameChar c = true) : IsChar c := by
  have hrange : 0x20 ≤ c.toNat ∧ c.toNat < 0x80 := by
    delta isNameChar isNameStart Char.isAlpha Char.isUpper Char.isLower Char.isDigit at h
    simp only [Bool.or_eq_true, Bool.and_eq_true, decide_eq_true_eq, beq_iff_eq,
      UInt32.le_iff_toNat_le, ge_iff_le] at h
    rcases h with ((((h | h) | rfl) | h) | rfl) | rfl
    · exact ⟨Nat.le_trans (by decide) h.1, Nat.lt_of_le_of_lt h.2 (by decide)⟩
    · exact ⟨Nat.le_trans (by decide) h.1, Nat.lt_of_le_of_lt h.2 (by decide)⟩
    · decide
    · exact ⟨Nat.le_trans (by decide) h.1, Nat.lt_of_le_of_lt h.2 (by decide)⟩
    · decide
    · decide
  exact .inr (.inr (.inr ⟨hrange.1, by omega, by omega⟩))

/-- A name is made of legal characters. -/
theorem isChar_of_isName (h : isName cs = true) : ∀ c ∈ cs, IsChar c := by
  obtain ⟨_, _, rfl, -, hchars⟩ := exists_cons_of_isName h
  exact fun c hc => isChar_of_isNameChar (hchars c hc)

/-- Escapes are made of legal characters; other characters stay what they are. -/
theorem isChar_or_eq_of_mem_escaped (h : c ∈ escaped d) : IsChar c ∨ c = d := by
  by_cases hd : d ∈ escapes
  · have hescapes : ∀ d ∈ escapes, ∀ c ∈ escaped d, IsChar c := by decide
    exact .inl (hescapes d hd c h)
  · rw [escaped_of_notMem hd] at h
    exact .inr (List.mem_singleton.mp h)

/-- Legal characters may stand anywhere. -/
theorem isFrom_of_isChar (h : ∀ c ∈ cs, IsChar c) : ∀ c ∈ cs, IsFrom source c :=
  fun c hc => .inl (h c hc)

/-- A text is written with its own characters and with legal ones. -/
theorem isFrom_escape {s : String} (h : IsWritten source s) :
    ∀ c ∈ escape s, IsFrom source c := by
  intro c hc
  obtain ⟨d, hd, hc⟩ := List.mem_flatMap.mp hc
  rcases isChar_or_eq_of_mem_escaped hc with hc | rfl
  · exact .inl hc
  · exact h c hd

/-- A new line holds legal characters. -/
theorem isFrom_newLine (depth : Nat) : ∀ c ∈ newLine depth, IsFrom source c := by
  refine isFrom_of_isChar (List.forall_mem_cons.mpr ⟨by decide, fun c hc => ?_⟩)
  rw [List.eq_of_mem_replicate hc]
  decide

/-- So is the head of a start tag. -/
theorem isFrom_writeHead {name : String} {attributes : List (String × Value)}
    (hname : isName name.toList = true) (hnames : ∀ a ∈ attributes, isName a.1.toList = true)
    (htexts : ∀ a ∈ attributes, ∃ s, a.2 = .text s ∧ IsWritten source s) :
    ∀ c ∈ writeHead name attributes, IsFrom source c := by
  have hmarks : ∀ c ∈ ['<', ' ', '=', '"'], IsFrom source c := isFrom_of_isChar (by decide)
  simp only [List.forall_mem_cons, List.not_mem_nil, false_implies, implies_true, and_true]
    at hmarks
  obtain ⟨hlt, hblank, hequals, hquote⟩ := hmarks
  have hattribute : ∀ a ∈ attributes, ∀ c ∈ writeAttribute a, IsFrom source c := by
    rintro ⟨key, value⟩ ha
    obtain ⟨s, rfl, hs⟩ := htexts _ ha
    simp only [writeAttribute, Value.write, List.forall_mem_append, List.forall_mem_cons,
      List.not_mem_nil, false_implies, implies_true, and_true]
    exact ⟨⟨⟨⟨hblank, isFrom_of_isChar (isChar_of_isName (hnames _ ha))⟩, hequals, hquote⟩,
      isFrom_escape hs⟩, hquote⟩
  simp only [writeHead, List.forall_mem_append, List.forall_mem_cons]
  refine ⟨⟨hlt, isFrom_of_isChar (isChar_of_isName hname)⟩, fun c hc => ?_⟩
  obtain ⟨a, ha, hc⟩ := List.mem_flatMap.mp hc
  exact hattribute a ha c hc

/-- What stands between tags holds legal characters and those of the texts, when the elements do. -/
theorem isFrom_writeMore {children : List Xml}
    (h : ∀ x ∈ children, ∀ depth, ∀ c ∈ x.write depth, IsFrom source c) (depth : Nat) :
    ∀ c ∈ writeMore depth children, IsFrom source c := by
  induction children with
  | nil => exact fun c hc => absurd hc List.not_mem_nil
  | cons x rest ih =>
    rw [writeMore]
    simp only [List.forall_mem_append]
    exact ⟨⟨isFrom_newLine depth, h x List.mem_cons_self depth⟩,
      ih fun y hy => h y (List.mem_cons_of_mem x hy)⟩

/-- A proper element is written with legal characters and characters of the source. -/
theorem IsProper.isFrom_write (h : IsProper source x) :
    ∀ depth, ∀ c ∈ x.write depth, IsFrom source c := by
  induction h with
  | @element name attributes children hname hnames _ htexts _ ih =>
    intro depth
    have hhead := isFrom_writeHead hname hnames htexts
    cases children with
    | nil =>
      simp only [write, List.forall_mem_append]
      exact ⟨hhead, isFrom_of_isChar (by decide)⟩
    | cons child rest =>
      have hmore := isFrom_writeMore ih (depth + 1)
      simp only [writeMore, List.forall_mem_append] at hmore
      obtain ⟨⟨hline, hchild⟩, hrest⟩ := hmore
      have hname : ∀ c ∈ name.toList, IsFrom source c := isFrom_of_isChar (isChar_of_isName hname)
      have hend : ∀ c ∈ ['<', '/'], IsFrom source c := isFrom_of_isChar (by decide)
      have hgt : IsFrom source '>' := .inl (by decide)
      have hopen : ∀ c ∈ '>' :: newLine (depth + 1), IsFrom source c :=
        List.forall_mem_cons.mpr ⟨hgt, hline⟩
      simp only [write, List.forall_mem_append]
      exact ⟨⟨⟨⟨⟨⟨⟨hhead, hopen⟩, hchild⟩, hrest⟩, isFrom_newLine depth⟩, hend⟩, hname⟩,
        List.forall_mem_singleton.mpr hgt⟩

/-! ### Documents -/

/-- A document holds legal characters and characters of the source. -/
theorem IsProper.isFrom_text (h : IsProper source x) : ∀ c ∈ x.text.toList, IsFrom source c := by
  have hline : ∀ c ∈ declaration.toList ++ ['\n'], IsFrom source c := isFrom_of_isChar (by decide)
  have htext : x.text.toList = declaration.toList ++ ['\n'] ++ x.write 0 := by
    simp [text]
  rw [htext, List.forall_mem_append]
  exact ⟨hline, h.isFrom_write 0⟩

/-- The reader takes no document with a character that XML forbids. -/
theorem isChar_of_read {s : String} (h : read s = some x) : ∀ c ∈ s.toList, IsChar c := by
  simp only [read, Option.bind_eq_bind, Option.bind_eq_some_iff] at h
  obtain ⟨cs, hcs, h⟩ := h
  split at h
  · rename_i hlegal
    rw [Text.after?_eq_some_iff.mp hcs, List.forall_mem_append]
    exact ⟨by decide, fun c hc => of_decide_eq_true (List.all_eq_true.mp hlegal c hc)⟩
  · cases h

/-- **Main statement.** A proper element, written as a document, reads back, when the document holds
legal characters only. -/
theorem IsProper.read_text (h : IsProper source x) (hlegal : ∀ c ∈ x.text.toList, IsChar c) :
    read x.text = some x := by
  have htext : x.text.toList = declaration.toList ++ ('\n' :: x.write 0) := by
    simp [text]
  have hafter : Text.after? declaration.toList x.text.toList = some ('\n' :: x.write 0) :=
    Text.after?_eq_some_iff.mpr htext
  have hbody : ('\n' :: x.write 0).all (IsChar ·) = true := by
    rw [List.all_eq_true]
    exact fun c hc => decide_eq_true (hlegal c (htext ▸ List.mem_append_right _ hc))
  have hreads : Reads .start ('\n' :: x.write 0) ⟨.content, [⟨[], [], [x]⟩]⟩ :=
    .cons rfl (h.reads_write 0 ⟨[], [], []⟩ [])
  rw [read, hafter]
  simp only [Option.bind_eq_bind, Option.bind_some, if_pos hbody]
  rw [hreads]
  rfl

/-- Tags must not cross, and a value must not hold markup. -/
example : ["<a><b></a></b>", "<a b=\"<\" />", "<a b=\"&\" />", "<a b=\"1\" b=\"2\" />"].map
    (fun s => (read (declaration ++ s)).isSome) = [false, false, false, false] := by
  decide +kernel

end Diagrams.Xml
