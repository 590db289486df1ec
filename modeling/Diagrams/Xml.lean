/-!
# XML elements

* `Xml.Value` — what an attribute holds.
* `Xml` — an element with its attributes and the elements in it. The documents written here hold no
  text between their tags.
* `Xml.tag` — an element whose attributes hold texts.
* `Xml.escape` — the characters of a text in an attribute as they are written.
* `Xml.text` — the written document, an element a line, indented by two spaces for each level.
-/

namespace Diagrams

/-- What an attribute holds. -/
inductive Xml.Value where
  /-- A text, which is written so that a reader finds it again. -/
  | text (s : String)
  /-- Characters that are written as they stand. -/
  | verbatim (s : String)
  deriving DecidableEq, Repr

/-- An element. -/
inductive Xml where
  /-- A name, attributes in the order in which they are written, and the elements in it. -/
  | element (name : String) (attributes : List (String × Xml.Value)) (children : List Xml)
  deriving Repr

instance : Inhabited Xml := ⟨.element "" [] []⟩

namespace Xml

/-- An element whose attributes hold texts. -/
def tag (name : String) (attributes : List (String × String)) (children : List Xml) : Xml :=
  element name (attributes.map fun a => (a.1, .text a.2)) children

/-- The name of the element. -/
def name : Xml → String
  | element name _ _ => name

/-- The attributes of the element. -/
def attributes : Xml → List (String × Value)
  | element _ attributes _ => attributes

/-- The elements in the element. -/
def children : Xml → List Xml
  | element _ _ children => children

/-- The written form of a character of a text. Markup is escaped, and so is white space other than
blanks, which a reader would take for blanks. -/
def escaped (c : Char) : List Char :=
  if c = '&' then "&amp;".toList
  else if c = '<' then "&lt;".toList
  else if c = '>' then "&gt;".toList
  else if c = '"' then "&quot;".toList
  else if c = '\r' then "&#13;".toList
  else if c = '\n' then "&#10;".toList
  else if c = '\t' then "&#09;".toList
  else [c]

/-- The written form of a text in an attribute. -/
def escape (s : String) : List Char := s.toList.flatMap escaped

/-- The characters that a text is not written with. -/
def escapes : List Char := ['&', '<', '>', '"', '\r', '\n', '\t']

/-- A character is written as it stands unless it is one of `escapes`. -/
theorem escaped_of_notMem {c : Char} (h : c ∉ escapes) : escaped c = [c] := by
  simp only [escapes, List.mem_cons, List.not_mem_nil, or_false, not_or] at h
  simp [escaped, h]

/-- The written form of what an attribute holds. -/
def Value.write : Value → List Char
  | text s => escape s
  | verbatim s => s.toList

/-- The written form of an attribute, with a blank before it. -/
def writeAttribute (a : String × Value) : List Char :=
  ' ' :: a.1.toList ++ ['=', '"'] ++ a.2.write ++ ['"']

/-- The name and the attributes, as they stand in a tag. -/
def writeHead (name : String) (attributes : List (String × Value)) : List Char :=
  '<' :: name.toList ++ attributes.flatMap writeAttribute

/-- A new line at a depth. -/
def newLine (depth : Nat) : List Char := '\n' :: List.replicate (2 * depth) ' '

mutual

/-- An element at a depth. -/
def write (depth : Nat) : Xml → List Char
  | element name attributes [] => writeHead name attributes ++ [' ', '/', '>']
  | element name attributes (child :: children) =>
    writeHead name attributes ++ '>' :: newLine (depth + 1) ++ write (depth + 1) child ++
      writeMore (depth + 1) children ++ newLine depth ++ ['<', '/'] ++ name.toList ++ ['>']

/-- Further elements at a depth, each on a line of its own. -/
def writeMore (depth : Nat) : List Xml → List Char
  | [] => []
  | child :: children => newLine depth ++ write depth child ++ writeMore depth children

end

/-- The first line of a document. -/
def declaration : String := "<?xml version=\"1.0\" encoding=\"UTF-8\"?>"

/-- A document with the element as its root. No newline follows the last tag. -/
def text (x : Xml) : String := declaration ++ "\n" ++ String.ofList (x.write 0)

end Xml

end Diagrams
