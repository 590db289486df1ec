import Diagrams.Number.Shortest
import Diagrams.Table

/-!
# JSON values

* `Json` — the values. An object's fields are kept in the order in which they were first written.
* `Double` — the numbers that are written with a fraction or an exponent, as 53-bit numbers with
  negative zero, the two infinities and the undefined number.
* `Json.field?` and the other views.
* `Json.IsFinite` — all numbers in a value are of finite size.
-/

namespace Diagrams

/-- A 53-bit number. -/
inductive Double where
  /-- A finite number other than negative zero. -/
  | finite (q : Rat)
  | negativeZero
  | infinite (negative : Bool)
  | undefined
  deriving DecidableEq, Repr

/-- The nearest 53-bit number to an exact value with a sign. The sign matters only at zero. -/
def Double.nearest (negative : Bool) (magnitude : Rat) : Double :=
  let r := Number.toBinary64 magnitude
  if (2 : Rat) ^ (1024 : Int) ≤ r then infinite negative
  else if r = 0 then if negative then negativeZero else finite 0
  else finite (if negative then -r else r)

/-- The text of a number. -/
def Double.text : Double → String
  | finite q => Number.realText q
  | negativeZero => "-0.0"
  | infinite negative => if negative then "-Infinity" else "Infinity"
  | undefined => "NaN"

/-- A JSON value. -/
inductive Json where
  | null
  | bool (b : Bool)
  | int (n : Int)
  | real (x : Double)
  | str (s : String)
  | arr (items : List Json)
  | obj (fields : List (String × Json))
  deriving Repr

instance : Inhabited Json := ⟨.null⟩

namespace Json

/-- The value of a field of an object. -/
def field? (j : Json) (name : String) : Option Json :=
  match j with
  | obj fields => Table.get? fields name
  | _ => none

/-- Whether the value is an object with the field. -/
def has (j : Json) (name : String) : Bool := (j.field? name).isSome

/-- The word for the kind of value, as messages give it. -/
def kindWord : Json → String
  | null => "NoneType"
  | bool _ => "bool"
  | int _ => "int"
  | real _ => "float"
  | str _ => "str"
  | arr _ => "list"
  | obj _ => "dict"

/-- Whether the value counts as absent: null, false, zero, or nothing in it. -/
def isEmpty : Json → Bool
  | null => true
  | bool b => !b
  | int n => n == 0
  | real x => x == .finite 0 || x == .negativeZero
  | str s => s == ""
  | arr items => items.isEmpty
  | obj fields => fields.isEmpty

/-- All numbers in the value are of finite size. -/
inductive IsFinite : Json → Prop where
  | null : IsFinite null
  | bool (b : Bool) : IsFinite (bool b)
  | int (n : Int) : IsFinite (int n)
  | finite (q : Rat) : IsFinite (real (.finite q))
  | negativeZero : IsFinite (real .negativeZero)
  | str (s : String) : IsFinite (str s)
  | arr {items : List Json} (h : ∀ j ∈ items, IsFinite j) : IsFinite (arr items)
  | obj {fields : List (String × Json)} (h : ∀ f ∈ fields, IsFinite f.2) : IsFinite (obj fields)

/-- A value that may be missing. -/
def ofOption {α : Type} (f : α → Json) : Option α → Json
  | none => null
  | some a => f a

end Json

end Diagrams
