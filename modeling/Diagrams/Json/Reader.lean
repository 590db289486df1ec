import Diagrams.Json.Basic
import Diagrams.Text.Digit
import Diagrams.Text.Encoding

/-!
# Reading JSON

A text is cut into tokens, and the tokens are read by a machine that holds the open containers on a
stack.

* `Json.Token`, `Json.tokens` — tokens and the cutting. Besides the standard forms the number words
  `NaN`, `Infinity` and `-Infinity` are known.
* `Json.Frame`, `Json.Expect`, `Json.run` — an open container, what may come next, the machine.
* `Json.read` — the value of a text.
* `Json.ReadError` — why a text has none. The first fault from the start of the text counts.

A name that occurs twice in an object keeps its first place and its last value. White space is the
blank, tab, newline and carriage return; strings hold no control characters. Whole numbers have a
bound on their digits. A string that is made of units may hold half of a character; such a value is
none here.
-/

namespace Diagrams.Json

/-- A token: a mark, a value without parts, or what is neither. -/
inductive Token where
  | openBrace
  | closeBrace
  | openBracket
  | closeBracket
  | comma
  | colon
  | text (s : String)
  | scalar (j : Json)
  /-- A whole number with too many digits. -/
  | longNumber
  /-- A string with half of a character in it. -/
  | half
  /-- Text that starts no token. -/
  | stray

/-! ## Strings -/

/-- The number that four hexadecimal digits denote. -/
def unit? (a b c d : Char) : Option Nat :=
  [a, b, c, d].foldlM (fun n x => (Text.hexDigit? x).map (16 * n + ·)) 0

/-- The character that a short escape stands for. -/
def shortEscape? (c : Char) : Option Char :=
  if c = '"' ∨ c = '\\' ∨ c = '/' then some c
  else if c = 'b' then some '\x08'
  else if c = 'f' then some '\x0c'
  else if c = 'n' then some '\n'
  else if c = 'r' then some '\r'
  else if c = 't' then some '\t'
  else none

/-- The UTF-16 units and characters of a string up to its closing quote, and the rest. -/
def textUnits? : List Char → Option (List Nat × List Char)
  | [] => none
  | '"' :: rest => some ([], rest)
  | '\\' :: 'u' :: a :: b :: c :: d :: rest => do
    let n ← unit? a b c d
    let (units, rest) ← textUnits? rest
    return (n :: units, rest)
  | '\\' :: c :: rest => do
    let e ← shortEscape? c
    let (units, rest) ← textUnits? rest
    return (e.toNat :: units, rest)
  | c :: rest =>
    if c = '\\' ∨ c.toNat < 32 then none
    else do
      let (units, rest) ← textUnits? rest
      return (c.toNat :: units, rest)

/-! ## Numbers -/

/-- The number that decimal digits denote. -/
def digitsValue (ds : List Char) : Nat := ds.foldl (fun n c => 10 * n + (c.toNat - 48)) 0

/-- The digits of a whole part, and the rest: a zero alone, or digits that do not start with one. -/
def wholePart? : List Char → Option (List Char × List Char)
  | [] => none
  | c :: rest =>
    if c = '0' then some (['0'], rest)
    else if c.isDigit then some ((c :: rest).takeWhile Char.isDigit, rest.dropWhile Char.isDigit)
    else none

/-- The digits after a point, and the rest; no digits when there is no point with digits. -/
def fraction : List Char → List Char × List Char
  | '.' :: rest =>
    match rest.takeWhile Char.isDigit with
    | [] => ([], '.' :: rest)
    | ds => (ds, rest.dropWhile Char.isDigit)
  | rest => ([], rest)

/-- The digits of an exponent with their sign. -/
def signedDigits? : List Char → Option (Int × List Char)
  | '-' :: rest => digits? rest true
  | '+' :: rest => digits? rest false
  | rest => digits? rest false
where
  /-- At least one digit. -/
  digits? (rest : List Char) (negative : Bool) : Option (Int × List Char) :=
    match rest.takeWhile Char.isDigit with
    | [] => none
    | ds =>
      let n : Int := digitsValue ds
      some (if negative then -n else n, rest.dropWhile Char.isDigit)

/-- The exponent, when there is one, and the rest. -/
def exponent : List Char → Option Int × List Char
  | c :: rest =>
    if c = 'e' ∨ c = 'E' then
      match signedDigits? rest with
      | some (n, rest) => (some n, rest)
      | none => (none, c :: rest)
    else (none, c :: rest)
  | [] => (none, [])

/-- The 53-bit number nearest to `m * 10 ^ e`. Exponents far outside the range are not computed. -/
def scaled (negative : Bool) (m : Nat) (e : Int) : Double :=
  let digits : Int := (Nat.toDigits 10 m).length
  if m = 0 ∨ digits + e < -400 then .nearest negative 0
  else if 400 < digits + e then .infinite negative
  else .nearest negative ((m : Rat) * (10 : Rat) ^ e)

/-- The most digits that a whole number may have. -/
def maxDigits : Nat := 4300

/-- The number at the start of the text after its sign. -/
def number? (negative : Bool) (cs : List Char) : Option (Token × List Char) := do
  let (whole, rest) ← wholePart? cs
  let (places, rest) := fraction rest
  let (shift, rest) := exponent rest
  if places = [] ∧ shift = none then
    if maxDigits < whole.length then return (.longNumber, rest)
    else
      let m := digitsValue whole
      return (.scalar (int (if negative then -(m : Int) else m)), rest)
  else
    let m := digitsValue (whole ++ places)
    return (.scalar (real (scaled negative m (shift.getD 0 - places.length))), rest)

/-! ## Tokens -/

/-- The words of values without parts. -/
def wordValues : List (List Char × Json) :=
  [("null".toList, null), ("true".toList, bool true), ("false".toList, bool false),
   ("NaN".toList, real .undefined), ("Infinity".toList, real (.infinite false)),
   ("-Infinity".toList, real (.infinite true))]

/-- The word at the start of the text, and the rest. -/
def word? (cs : List Char) : Option (Json × List Char) :=
  wordValues.findSome? fun w =>
    if w.1.isPrefixOf cs then some (w.2, cs.drop w.1.length) else none

/-- The token at the start of the text, and the rest. -/
def token? : List Char → Option (Token × List Char)
  | '{' :: rest => some (.openBrace, rest)
  | '}' :: rest => some (.closeBrace, rest)
  | '[' :: rest => some (.openBracket, rest)
  | ']' :: rest => some (.closeBracket, rest)
  | ',' :: rest => some (.comma, rest)
  | ':' :: rest => some (.colon, rest)
  | '"' :: rest => do
    let (units, rest) ← textUnits? rest
    match Text.ofUnits? units with
    | some chars => return (.text (String.ofList chars), rest)
    | none => return (.half, rest)
  | cs =>
    match word? cs with
    | some (j, rest) => some (.scalar j, rest)
    | none =>
      match cs with
      | '-' :: digits => number? true digits
      | _ => number? false cs

/-- The blank, tab, newline and carriage return. -/
def isSpace (c : Char) : Bool := c == ' ' || c == '\t' || c == '\n' || c == '\r'

/-- The tokens of a text, up to where it starts none. Each token takes at least one character. -/
def tokens (cs : List Char) : List Token :=
  match cs with
  | [] => []
  | c :: rest =>
    if isSpace c then tokens rest
    else
      match token? (c :: rest) with
      | none => [.stray]
      | some (t, rest') => if rest'.length ≤ rest.length then t :: tokens rest' else [.stray]
termination_by cs.length

/-! ## Values -/

/-- A container that is not closed yet. -/
inductive Frame where
  /-- A list with its items so far, the last one first. -/
  | items (done : List Json)
  /-- An object with its fields so far and the name of the field that is being read. -/
  | fields (done : Table Json) (name : String)

/-- What may come next. -/
inductive Expect where
  /-- A value. -/
  | value
  /-- A value, or the end of the list just opened. -/
  | itemOrEnd
  /-- A name of an object with these fields. -/
  | name (done : Table Json)
  /-- A name, or the end of the object just opened. -/
  | nameOrEnd
  /-- The colon after a name of an object with these fields. -/
  | colon (done : Table Json) (name : String)
  /-- What follows a value. -/
  | after (j : Json)

/-- Why a text has no value. -/
inductive ReadError where
  /-- It has not the form of one. -/
  | malformed
  /-- A whole number has too many digits. -/
  | longNumber
  /-- A string has half of a character in it, so it is no text. -/
  | half
  deriving DecidableEq, Repr

/-- The value that the tokens make up, with the open containers on the stack. -/
def run : Expect → List Frame → List Token → Except ReadError Json
  | .after j, [], [] => .ok j
  | _, _, [] => .error .malformed
  | _, _, .half :: _ => .error .half
  | .value, stack, .openBrace :: ts => run .nameOrEnd stack ts
  | .value, stack, .openBracket :: ts => run .itemOrEnd stack ts
  | .value, stack, .text s :: ts => run (.after (str s)) stack ts
  | .value, stack, .scalar j :: ts => run (.after j) stack ts
  | .value, _, .longNumber :: _ => .error .longNumber
  | .itemOrEnd, stack, .closeBracket :: ts => run (.after (arr [])) stack ts
  | .itemOrEnd, stack, .openBrace :: ts => run .nameOrEnd (.items [] :: stack) ts
  | .itemOrEnd, stack, .openBracket :: ts => run .itemOrEnd (.items [] :: stack) ts
  | .itemOrEnd, stack, .text s :: ts => run (.after (str s)) (.items [] :: stack) ts
  | .itemOrEnd, stack, .scalar j :: ts => run (.after j) (.items [] :: stack) ts
  | .itemOrEnd, _, .longNumber :: _ => .error .longNumber
  | .nameOrEnd, stack, .closeBrace :: ts => run (.after (obj [])) stack ts
  | .nameOrEnd, stack, .text s :: ts => run (.colon [] s) stack ts
  | .name done, stack, .text s :: ts => run (.colon done s) stack ts
  | .colon done s, stack, .colon :: ts => run .value (.fields done s :: stack) ts
  | .after j, .items done :: stack, .comma :: ts => run .value (.items (j :: done) :: stack) ts
  | .after j, .items done :: stack, .closeBracket :: ts =>
    run (.after (arr (j :: done).reverse)) stack ts
  | .after j, .fields done s :: stack, .comma :: ts => run (.name (done.insert s j)) stack ts
  | .after j, .fields done s :: stack, .closeBrace :: ts =>
    run (.after (obj (done.insert s j))) stack ts
  | _, _, _ :: _ => .error .malformed

/-- The value of a text. -/
def read (cs : List Char) : Except ReadError Json := run .value [] (tokens cs)

end Diagrams.Json
