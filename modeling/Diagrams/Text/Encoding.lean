/-!
# Encodings of text

The bytes of a text are written in units of one, two or four. Which ones they are shows in the zero
bytes among the first four, because a text that is a record starts with ASCII characters.

* `Encoding` — the sizes of the units with the order of their bytes, `Encoding.ofBytes` — the
  encoding that bytes show.
* `ofUnits?` — the characters that units of two bytes make up, unless half of one is among them.
* `Encoding.decode?` — the text that bytes denote.
* `reread?` — the text that the bytes of another text denote.
-/

namespace Diagrams.Text

/-- The order of the bytes of a unit: the most significant one first or last. -/
inductive ByteOrder where
  | big
  | little
  deriving DecidableEq, Repr

/-- The number that the bytes of a unit denote. -/
def ByteOrder.number (order : ByteOrder) (bytes : List UInt8) : Nat :=
  let digits := match order with
    | big => bytes
    | little => bytes.reverse
  digits.foldl (fun n b => 256 * n + b.toNat) 0

/-- How a text is written in bytes. -/
inductive Encoding where
  | utf8
  | utf16 (order : ByteOrder)
  | utf32 (order : ByteOrder)
  deriving DecidableEq, Repr

/-- The encoding that bytes show. -/
def Encoding.ofBytes : List UInt8 → Encoding
  | [a, b] => if a = 0 then utf16 .big else if b = 0 then utf16 .little else utf8
  | a :: b :: c :: d :: _ =>
    if a = 0 then if b = 0 then utf32 .big else utf16 .big
    else if b = 0 then if c = 0 ∧ d = 0 then utf32 .little else utf16 .little
    else utf8
  | _ => utf8

/-- Bytes that start with two others than zero are written in units of one. -/
theorem Encoding.ofBytes_cons_cons {a b : UInt8} (ha : a ≠ 0) (hb : b ≠ 0) (rest : List UInt8) :
    ofBytes (a :: b :: rest) = utf8 := by
  match rest with
  | [] => simp [ofBytes, ha, hb]
  | [_] => simp [ofBytes]
  | _ :: _ :: _ => simp [ofBytes, ha, hb]

/-- The character with a number. The numbers of halves belong to none. -/
def charOf? (n : Nat) : Option Char := if n.isValidChar then some (Char.ofNat n) else none

/-- The characters that units make up. A high unit and the low unit after it make one character;
each of them alone is only half of one. -/
def ofUnits? : List Nat → Option (List Char)
  | [] => some []
  | [n] => (charOf? n).map ([·])
  | n :: m :: rest =>
    if 0xD800 ≤ n ∧ n < 0xDC00 ∧ 0xDC00 ≤ m ∧ m < 0xE000 then
      (ofUnits? rest).map (Char.ofNat (0x10000 + (n - 0xD800) * 1024 + (m - 0xDC00)) :: ·)
    else do return (← charOf? n) :: (← ofUnits? (m :: rest))

/-- The units of two bytes, when none is cut off. -/
def units16? (order : ByteOrder) : List UInt8 → Option (List Nat)
  | [] => some []
  | [_] => none
  | a :: b :: rest => (units16? order rest).map (order.number [a, b] :: ·)

/-- The characters of four bytes, when none is cut off or too large. -/
def chars32? (order : ByteOrder) : List UInt8 → Option (List Char)
  | [] => some []
  | a :: b :: c :: d :: rest => do
    return (← charOf? (order.number [a, b, c, d])) :: (← chars32? order rest)
  | _ => none

/-- The text that bytes denote. Where half of a character is among them they denote none. -/
def Encoding.decode? (bytes : List UInt8) : Encoding → Option (List Char)
  | utf8 => (String.fromUTF8? ⟨bytes.toArray⟩).map String.toList
  | utf16 order => (units16? order bytes).bind ofUnits?
  | utf32 order => chars32? order bytes

/-- The text that the bytes of another text denote. Bytes that show units of one denote the text
itself. -/
def reread? (cs : List Char) : Option (List Char) :=
  let bytes := cs.flatMap String.utf8EncodeChar
  match Encoding.ofBytes bytes with
  | .utf8 => some cs
  | encoding => encoding.decode? bytes

end Diagrams.Text
