import Diagrams.Text.Scan

/-!
# Lines of a sequence diagram

* `Sequence.MessageArrow` — the four arrows of messages.
* `Sequence.Line` — what a line says: a participant is declared, or a message is sent.
* `Sequence.Line.ofText` — the reading of a line; the declaration is tried first.
-/

namespace Diagrams.Sequence

open Text

/-- The arrow of a message: one stroke or two, one point or two. -/
structure MessageArrow where
  /-- Two strokes. -/
  dashed : Bool
  /-- Two points. -/
  async : Bool
  deriving DecidableEq, Repr

/-- The written form. -/
def MessageArrow.token (a : MessageArrow) : List Char :=
  (if a.dashed then ['-', '-'] else ['-']) ++ (if a.async then ['>', '>'] else ['>'])

/-- The arrow at the start of the text, as long as it can be, and the rest. -/
def MessageArrow.ofStart? : List Char → Option (MessageArrow × List Char)
  | '-' :: '-' :: '>' :: '>' :: rest => some (⟨true, true⟩, rest)
  | '-' :: '-' :: '>' :: rest => some (⟨true, false⟩, rest)
  | '-' :: '>' :: '>' :: rest => some (⟨false, true⟩, rest)
  | '-' :: '>' :: rest => some (⟨false, false⟩, rest)
  | _ => none

/-- What a line says. -/
inductive Line where
  /-- A participant is declared; the label is its name unless another is given. -/
  | declaration (isActor : Bool) (id label : String)
  /-- A message is sent. -/
  | message (source : String) (arrow : MessageArrow) (target text : String)
  /-- Nothing that counts. -/
  | ignored
  deriving DecidableEq, Repr

/-- The keyword of a declaration and the text after it. -/
def keyword? (cs : List Char) : Option (Bool × List Char) :=
  match afterLetters? "participant".toList cs with
  | some rest => some (false, rest)
  | none => (afterLetters? "actor".toList cs).map fun rest => (true, rest)

/-- The label after the word `as`; no text at all stands for no label. -/
def alias? (cs : List Char) : Option (Option (List Char)) :=
  if cs = [] then some none
  else do
    let rest ← gap? (← afterLetters? ['a', 's'] (← gap? cs))
    if rest = [] then none else some (some rest)

/-- The parts of a declaration. -/
def declaration? (cs : List Char) : Option (Bool × List Char × Option (List Char)) := do
  let (isActor, rest) ← keyword? cs
  let (id, rest) ← name? (← gap? rest)
  return (isActor, id, ← alias? rest)

/-- The parts of a message. -/
def message? (cs : List Char) : Option (List Char × MessageArrow × List Char × List Char) := do
  let (source, rest) ← name? cs
  let (arrow, rest) ← MessageArrow.ofStart? (trimLeft rest)
  let (target, rest) ← name? (trimLeft rest)
  let text := trimLeft (← after? [':'] (trimLeft rest))
  if text = [] then none else some (source, arrow, target, text)

/-- What a trimmed line says. -/
def Line.ofText (cs : List Char) : Line :=
  match declaration? cs with
  | some (isActor, id, label) =>
    declaration isActor (String.ofList id) (String.ofList (trim (label.getD id)))
  | none =>
    match message? cs with
    | some (source, arrow, target, text) =>
      message (String.ofList source) arrow (String.ofList target) (String.ofList (trim text))
    | none => ignored

end Diagrams.Sequence
