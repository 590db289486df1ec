import Diagrams.Vocabulary

/-!
# Cardinalities

The nine written marks of entity-relationship lines, and the end of a line that each draws.
-/

namespace Diagrams

/-- The marks, named by their two characters: `b` for a bar, `o` for a ring, `l` and `r` for the
left and the right brace. -/
inductive Cardinality where
  | bb
  | ob
  | bo
  | ol
  | lo
  | ro
  | bl
  | rb
  | lb
  deriving DecidableEq, Repr

namespace Cardinality

/-- The marks in the order in which they are looked for. -/
def all : List Cardinality := [bb, ob, bo, ol, lo, ro, bl, rb, lb]

/-- The written form. -/
def token : Cardinality → List Char
  | bb => ['|', '|']
  | ob => ['o', '|']
  | bo => ['|', 'o']
  | ol => ['o', '{']
  | lo => ['{', 'o']
  | ro => ['}', 'o']
  | bl => ['|', '{']
  | rb => ['}', '|']
  | lb => ['{', '|']

/-- The mark of two characters. -/
def ofPair? (c d : Char) : Option Cardinality := all.find? fun m => m.token == [c, d]

instance : Vocabulary Cardinality where
  all := all
  name m := String.ofList m.token
  mem_all a := by cases a <;> decide
  name_injective a b h := by
    have h := String.ofList_injective h
    cases a <;> cases b <;> revert h <;> decide

/-- What the end of a line shows. -/
def marker : Cardinality → String
  | bb => "ERone"
  | ob | bo => "ERzeroToOne"
  | ol | ro | lo => "ERzeroToMany"
  | bl | rb | lb => "ERoneToMany"

end Cardinality

/-- The two ends of a line. -/
inductive LineEnd where
  | start
  | finish
  deriving DecidableEq, Repr

/-- The word of an end in style text. -/
def LineEnd.word : LineEnd → String
  | start => "start"
  | finish => "end"

/-- The marker of a term; foreign words show exactly one. -/
def cardinalityMarker : Term Cardinality → String
  | .known m => m.marker
  | .other .. => Cardinality.bb.marker

/-- Style text for one end of a relationship. -/
def cardinalityStyle (m : Term Cardinality) (e : LineEnd) : String :=
  e.word ++ "Arrow=" ++ cardinalityMarker m ++ ";" ++ e.word ++ "Fill=0;"

end Diagrams
