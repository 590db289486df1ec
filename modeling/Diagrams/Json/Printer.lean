import Diagrams.Json.Basic

/-!
# Writing JSON

* `Json.quote` — a string in quotes, in ASCII: characters outside the printable range are written as
  UTF-16 units in hexadecimal.
* `Json.write` — a value, given what separates the items of each depth.
* `Json.indented` — the text with two spaces of indentation per level and one item a line.
-/

namespace Diagrams.Json

/-- The digits `0` to `f`. -/
def hexDigit (n : Nat) : Char := if n < 10 then Char.ofNat (48 + n) else Char.ofNat (87 + n)

/-- A UTF-16 unit as an escape of four digits. -/
def unitEscape (n : Nat) : List Char :=
  ['\\', 'u', hexDigit (n / 4096 % 16), hexDigit (n / 256 % 16), hexDigit (n / 16 % 16),
    hexDigit (n % 16)]

/-- The written form of a character. Characters beyond the sixteen-bit range take two units. -/
def escaped (c : Char) : List Char :=
  if c = '"' then ['\\', '"']
  else if c = '\\' then ['\\', '\\']
  else if c = '\n' then ['\\', 'n']
  else if c = '\r' then ['\\', 'r']
  else if c = '\t' then ['\\', 't']
  else if c = '\x08' then ['\\', 'b']
  else if c = '\x0c' then ['\\', 'f']
  else if 32 ≤ c.toNat ∧ c.toNat < 127 then [c]
  else if c.toNat < 0x10000 then unitEscape c.toNat
  else
    let n := c.toNat - 0x10000
    unitEscape (0xD800 + n / 1024) ++ unitEscape (0xDC00 + n % 1024)

/-- A string in quotes. -/
def quote (s : String) : List Char := '"' :: s.toList.flatMap escaped ++ ['"']

mutual

/-- The text of a value at a depth. `gap n` is written around the items of a container whose items
are at depth `n`. -/
def write (gap : Nat → List Char) (depth : Nat) : Json → List Char
  | null => "null".toList
  | bool b => (if b then "true" else "false").toList
  | int n => (toString n).toList
  | real x => x.text.toList
  | str s => quote s
  | arr [] => ['[', ']']
  | arr (item :: items) =>
    '[' :: gap (depth + 1) ++ write gap (depth + 1) item ++ writeItems gap (depth + 1) items ++
      gap depth ++ [']']
  | obj [] => ['{', '}']
  | obj ((name, value) :: fields) =>
    '{' :: gap (depth + 1) ++ quote name ++ [':', ' '] ++ write gap (depth + 1) value ++
      writeFields gap (depth + 1) fields ++ gap depth ++ ['}']

/-- The items after the first. -/
def writeItems (gap : Nat → List Char) (depth : Nat) : List Json → List Char
  | [] => []
  | item :: items =>
    ',' :: gap depth ++ write gap depth item ++ writeItems gap depth items

/-- The fields after the first. -/
def writeFields (gap : Nat → List Char) (depth : Nat) : List (String × Json) → List Char
  | [] => []
  | (name, value) :: fields =>
    ',' :: gap depth ++ quote name ++ [':', ' '] ++ write gap depth value ++
      writeFields gap depth fields

end

/-- A new line, indented by two spaces for each level. -/
def indentation (depth : Nat) : List Char := '\n' :: List.replicate (2 * depth) ' '

/-- One item a line, indented by two spaces for each level. -/
def indented (j : Json) : String := String.ofList (j.write indentation 0)

/-- All on one line. -/
def compact (j : Json) : String := String.ofList (j.write (fun _ => []) 0)

end Diagrams.Json
