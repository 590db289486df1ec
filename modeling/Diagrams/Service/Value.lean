import Diagrams.Json.Basic
import Diagrams.Text.Quoted

/-!
# Values that are sent

What is sent to the service is read into values like those of records. Only its strings are wider:
an escape may stand for half of a character, which is in no text.

* `Point`, `Points` — characters and halves of characters, and strings of them.
* `Points.text?` — the text that a string is when it has no halves.
* `Value`, `Value.ofJson` — the values, and a value whose strings are texts.
* `Value.display` — a value as it is shown in running text: the three words with a capital letter,
  strings in quotes, and the parts of a container after one another, set off by a comma and a blank.

A string that is shown by itself is in quotes too, so a list of words can be told from a word.
-/

namespace Diagrams

/-- The text by which a number is shown; what is no number of finite size is a word. -/
def Double.display : Double → String
  | infinite negative => if negative then "-inf" else "inf"
  | undefined => "nan"
  | x => x.text

namespace Service

/-! ## Strings -/

/-- The first number of a half. -/
def firstHalf : Nat := 0xD800

/-- A character, or half of one. -/
inductive Point where
  | char (c : Char)
  /-- Halves are counted from the first one. -/
  | half (n : Fin 0x800)
  deriving DecidableEq, Repr

/-- A string that may have halves of characters in it. -/
abbrev Points := List Point

/-- The character, when the point is one. -/
def Point.char? : Point → Option Char
  | char c => some c
  | half _ => none

/-- A point in quotes of the given kind. -/
def Point.quoted (quote : Char) : Point → List Char
  | char c => Text.quotedChar quote c
  | half n => '\\' :: 'u' :: Text.hexDigits 4 (firstHalf + n)

namespace Points

/-- The points of a text. -/
def ofText (s : String) : Points := s.toList.map .char

/-- The text that a string is, when it has no halves. -/
def text? (ps : Points) : Option String := (ps.mapM Point.char?).map String.ofList

/-- A string in quotes. -/
def quoted (ps : Points) : List Char :=
  let quote := Text.quoteFor (ps.filterMap Point.char?)
  quote :: ps.flatMap (Point.quoted quote) ++ [quote]

/-- The points of a text are the text. -/
@[simp] theorem text?_ofText (s : String) : (ofText s).text? = some s := by
  have hchars : ∀ cs : List Char, (cs.map Point.char).mapM Point.char? = some cs := by
    intro cs
    induction cs with
    | nil => rfl
    | cons c cs ih => simp [Point.char?, ih]
  rw [text?, ofText, hchars, Option.map_some, String.ofList_toList]

end Points

/-! ## Values -/

/-- A value that is sent. -/
inductive Value where
  | null
  | bool (b : Bool)
  | int (n : Int)
  | real (x : Double)
  | str (ps : Points)
  | arr (items : List Value)
  | obj (fields : List (Points × Value))
  deriving Repr

instance : Inhabited Value := ⟨.null⟩

namespace Value

/-- The value of a field. -/
def get? (fields : List (Points × Value)) (name : String) : Option Value :=
  (fields.find? fun f => f.1 == Points.ofText name).map (·.2)

/-- Whether the value counts as absent: null, false, zero, or nothing in it. -/
def isEmpty : Value → Bool
  | null => true
  | bool b => !b
  | int n => n == 0
  | real x => x == .finite 0 || x == .negativeZero
  | str ps => ps.isEmpty
  | arr items => items.isEmpty
  | obj fields => fields.isEmpty

mutual

/-- The value whose strings are texts. -/
def ofJson : Json → Value
  | .null => null
  | .bool b => bool b
  | .int n => int n
  | .real x => real x
  | .str s => str (.ofText s)
  | .arr items => arr (ofItems items)
  | .obj fields => obj (ofFields fields)

/-- The items whose strings are texts. -/
def ofItems : List Json → List Value
  | [] => []
  | item :: items => ofJson item :: ofItems items

/-- The fields whose strings are texts. -/
def ofFields : List (String × Json) → List (Points × Value)
  | [] => []
  | (name, value) :: fields => (.ofText name, ofJson value) :: ofFields fields

end

mutual

/-- A value as it is shown. -/
def display : Value → List Char
  | null => "None".toList
  | bool b => (if b then "True" else "False").toList
  | int n => (toString n).toList
  | real x => x.display.toList
  | str ps => ps.quoted
  | arr [] => ['[', ']']
  | arr (item :: items) => '[' :: display item ++ displayItems items ++ [']']
  | obj [] => ['{', '}']
  | obj ((name, value) :: fields) =>
    '{' :: name.quoted ++ [':', ' '] ++ display value ++ displayFields fields ++ ['}']

/-- The items after the first. -/
def displayItems : List Value → List Char
  | [] => []
  | item :: items => [',', ' '] ++ display item ++ displayItems items

/-- The fields after the first. -/
def displayFields : List (Points × Value) → List Char
  | [] => []
  | (name, value) :: fields =>
    [',', ' '] ++ name.quoted ++ [':', ' '] ++ display value ++ displayFields fields

end

/-- A value as it is shown. -/
def displayed (v : Value) : String := String.ofList v.display

end Value

end Service

end Diagrams
