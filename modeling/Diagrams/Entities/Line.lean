import Diagrams.Diagram

/-!
# Lines of an entity-relationship diagram

* `Entities.attribute?` — an attribute: type, name, keys and a comment in quotes.
* `Entities.relationship?` — two entities with the marks and the link between them, and a label.
* `Entities.opening?`, `Entities.shorthand?` — an entity whose attributes follow on lines of their
  own, and one with all of them on its line.
* `Entities.Line` — what a line says.

The ring of a mark is written with the letter o, so it could also belong to the name in front of it.
The name keeps the letter unless the rest then is no relationship; it is given up only to the marks
that start with a ring.
-/

namespace Diagrams.Entities

open Text

/-! ## Attributes -/

/-- The key mark at the start of the text, and the rest. -/
def key? (cs : List Char) : Option (Key × List Char) :=
  match cs with
  | 'P' :: 'K' :: rest => some (.primary, rest)
  | 'F' :: 'K' :: rest => some (.foreign, rest)
  | 'U' :: 'K' :: rest => some (.unique, rest)
  | _ => none

/-- The text after white space, one comma at most, and white space again. -/
def afterComma (cs : List Char) : List Char :=
  match trimLeft cs with
  | ',' :: rest => trimLeft rest
  | rest => rest

/-- White space at the start is all that is dropped. -/
theorem length_trimLeft_le (cs : List Char) : (trimLeft cs).length ≤ cs.length :=
  (List.dropWhile_sublist _).length_le

/-- Nothing is added. -/
theorem length_afterComma_le (cs : List Char) : (afterComma cs).length ≤ cs.length := by
  unfold afterComma
  have h := length_trimLeft_le cs
  split
  · rename_i rest hr
    have := length_trimLeft_le rest
    simp only [hr, List.length_cons] at h
    omega
  · exact h

/-- A key mark takes two characters. -/
theorem length_of_key? {cs rest : List Char} {k : Key} (h : key? cs = some (k, rest)) :
    rest.length + 2 = cs.length := by
  unfold key? at h
  split at h <;> simp at h <;> simp [h.2]

/-- The key marks at the start of the text, each after white space and one comma at most, and the
rest. -/
def keys (cs : List Char) : List Key × List Char :=
  match h : key? (afterComma cs) with
  | some (k, rest) =>
    have : rest.length < cs.length := by
      have := length_of_key? h
      have := length_afterComma_le cs
      omega
    (k :: (keys rest).1, (keys rest).2)
  | none => ([], cs)
termination_by cs.length

/-- The comment in quotes, which may be missing, when nothing but white space follows. -/
def comment? (cs : List Char) : Option (List Char) :=
  match trimLeft cs with
  | [] => some []
  | '"' :: rest =>
    match rest.dropWhile (· != '"') with
    | [] => none
    | _ :: rest' => if trimLeft rest' = [] then some (rest.takeWhile (· != '"')) else none
  | _ :: _ => none

/-- A type: a name, perhaps with empty square brackets after it. -/
def typeName? (cs : List Char) : Option (List Char × List Char) := do
  let (name, rest) ← name? cs
  match rest with
  | '[' :: ']' :: rest => some (name ++ ['[', ']'], rest)
  | rest => some (name, rest)

/-- The attribute that a line describes. -/
def attribute? (cs : List Char) : Option Attribute := do
  let (type, rest) ← typeName? cs
  let (name, rest) ← name? (← gap? rest)
  let (marks, rest) := keys rest
  let comment ← comment? rest
  return {
    type := String.ofList type, name := String.ofList name, keys := marks.map .known,
    comment := String.ofList comment }

/-! ## Relationships -/

/-- The mark at the start of the text, and the rest. -/
def mark? : List Char → Option (Cardinality × List Char)
  | a :: b :: rest => (Cardinality.ofPair? a b).map fun m => (m, rest)
  | _ => none

/-- The mark at the start of the text, when there is one, and the text after it and white space. -/
def markOrNone (cs : List Char) : Option Cardinality × List Char :=
  match mark? cs with
  | some (m, rest) => (some m, trimLeft rest)
  | none => (none, cs)

/-- The link of a relationship, identifying or not, and the rest. -/
def link? : List Char → Option (Bool × List Char)
  | '-' :: '-' :: rest => some (true, rest)
  | '.' :: '.' :: rest => some (false, rest)
  | _ => none

/-- The mark and the link after the first name. -/
def startMark? (cs : List Char) : Option (Option Cardinality × Bool × List Char) := do
  let (mark, rest) := markOrNone cs
  let (identifying, rest) ← link? rest
  return (mark, identifying, rest)

/-- The first name, the mark at the start, whether the link is identifying, and the rest. When no
mark and link follow the name, a ring at its end is read as part of the mark. -/
def start? (cs : List Char) :
    Option (List Char × Option Cardinality × Bool × List Char) := do
  let (name, rest) ← name? cs
  match startMark? (trimLeft rest) with
  | some link => some (name, link)
  | none =>
    if name.getLast? = some 'o' ∧ 2 ≤ name.length then
      let link ← startMark? ('o' :: rest)
      some (name.dropLast, link)
    else none

/-- The label after the colon, with or without quotes around it. When a quote comes next but no
text in it, the white space before the quote is the label. -/
def label? (cs : List Char) : Option (List Char) :=
  let quoted :=
    match trimLeft cs with
    | '"' :: rest => rest.takeWhile (· != '"')
    | rest => rest.takeWhile (· != '"')
  if quoted ≠ [] then some quoted
  else if cs.head?.any isBlank then some []
  else none

/-- The relationship that a line describes. It has no name yet. -/
def relationship? (cs : List Char) : Option Relationship := do
  let (source, startMark, identifying, rest) ← start? cs
  let (endMark, rest) := markOrNone (trimLeft rest)
  let (target, rest) ← name? rest
  let label ← label? (← after? [':'] (trimLeft rest))
  return {
    id := "", source := String.ofList source, target := String.ofList target
    startMark := .known (startMark.getD .bb), endMark := .known (endMark.getD .bb)
    label := String.ofList (trim label), identifying }

/-! ## Entities -/

/-- The name before a brace that opens at the end of the line. -/
def opening? (cs : List Char) : Option (List Char) := do
  let (name, rest) ← name? cs
  if trimLeft rest = ['{'] then some name else none

/-- The attributes whose types and names are the words, two by two. -/
def pairAttributes : List (List Char) → Option (List Attribute)
  | [] => some []
  | [_] => none
  | type :: name :: rest =>
    (pairAttributes rest).map fun attributes =>
      { type := String.ofList type, name := String.ofList name } :: attributes

/-- The name before the first brace, and the attributes in the words between it and the brace that
ends the line. There must be an even number of words and some at all. -/
def shorthand? (cs : List Char) : Option (List Char × List Attribute) := do
  let (name, rest) ← name? cs
  let attributes ← pairAttributes (words (← before? ['}'] (← after? ['{'] (trimLeft rest))))
  if attributes = [] then none else some (name, attributes)

/-! ## Lines -/

/-- What a line says. -/
inductive Line where
  /-- The attributes of an entity follow. -/
  | blockStart (name : String)
  /-- No more attributes follow. -/
  | blockEnd
  /-- An attribute of the entity whose block is open. -/
  | attribute (a : Attribute)
  /-- A relationship, which has no name yet. -/
  | relationship (r : Relationship)
  /-- An entity with attributes. -/
  | entity (name : String) (attributes : List Attribute)
  /-- Nothing that counts. -/
  | ignored
  deriving DecidableEq, Repr

/-- What a line outside of blocks says, or a line in a block that is no attribute. -/
def Line.ofOther (cs : List Char) : Line :=
  match relationship? cs with
  | some r => relationship r
  | none =>
    match shorthand? cs with
    | some (name, attributes) => entity (String.ofList name) attributes
    | none => ignored

/-- What a trimmed line says, given whether a block is open. -/
def Line.ofText (inBlock : Bool) (cs : List Char) : Line :=
  if cs = ['}'] then blockEnd
  else
    match opening? cs with
    | some name => blockStart (String.ofList name)
    | none =>
      match if inBlock then attribute? cs else none with
      | some a => .attribute a
      | none => ofOther cs

end Diagrams.Entities
