import Diagrams.Json.Printer
import Diagrams.Json.Reader

/-!
# Strings in quotes are read as they were written

**Main statement** (`Json.token?_quote`): the token at the start of a text that starts with a string
in quotes is that string, and the rest of the text is left.

A character is written as itself, as a short escape, or as one or two escapes of UTF-16 units. In
each case the reader finds the character's units (`Json.textUnits?_escaped`), and the units of
characters make up these characters (`Text.ofUnits?_flatMap`), since no character is half of a pair.
-/

namespace Diagrams

/-! ### Units -/

namespace Text

/-- The UTF-16 units of a character. -/
def units (c : Char) : List Nat :=
  if c.toNat < 0x10000 then [c.toNat]
  else [0xD800 + (c.toNat - 0x10000) / 1024, 0xDC00 + (c.toNat - 0x10000) % 1024]

/-- No character is half of a pair, and there are no more characters than pairs can make up. -/
theorem toNat_valid (c : Char) : c.toNat < 0xD800 ∨ 0xDFFF < c.toNat ∧ c.toNat < 0x110000 :=
  c.valid

/-- The number of a character belongs to it. -/
theorem charOf?_toNat (c : Char) : charOf? c.toNat = some c := by
  have hvalid : c.toNat.isValidChar := c.valid
  rw [charOf?, if_pos hvalid, Char.ofNat_toNat]

/-- A character's number that is no first half stands for the character. -/
theorem ofUnits?_cons (c : Char) (ns : List Nat) :
    ofUnits? (c.toNat :: ns) = (ofUnits? ns).map (c :: ·) := by
  have hc := toNat_valid c
  cases ns with
  | nil => simp [ofUnits?, charOf?_toNat]
  | cons m rest =>
    rw [ofUnits?, if_neg (by omega), charOf?_toNat]
    cases ofUnits? (m :: rest) <;> rfl

/-- The units of a character make it up. -/
theorem ofUnits?_units (c : Char) (ns : List Nat) :
    ofUnits? (units c ++ ns) = (ofUnits? ns).map (c :: ·) := by
  have hc := toNat_valid c
  unfold units
  split
  · rw [List.singleton_append, ofUnits?_cons]
  · rename_i hlarge
    have hpoint : 0x10000 + (0xD800 + (c.toNat - 0x10000) / 1024 - 0xD800) * 1024 +
        (0xDC00 + (c.toNat - 0x10000) % 1024 - 0xDC00) = c.toNat := by omega
    rw [List.cons_append, List.singleton_append, ofUnits?, if_pos (by omega), hpoint,
      Char.ofNat_toNat]

/-- The units of characters make them up. -/
theorem ofUnits?_flatMap (cs : List Char) : ofUnits? (cs.flatMap units) = some cs := by
  induction cs with
  | nil => rfl
  | cons c cs ih => rw [List.flatMap_cons, ofUnits?_units, ih, Option.map_some]

end Text

namespace Json

/-! ### Escapes -/

/-- A hexadecimal digit is read as it was written. -/
theorem hexDigit?_hexDigit : ∀ n < 16, Text.hexDigit? (hexDigit n) = some n := by decide

/-- The digits of a unit are read as the unit. -/
theorem unit?_hexDigit {n : Nat} (h : n < 0x10000) :
    unit? (hexDigit (n / 4096 % 16)) (hexDigit (n / 256 % 16)) (hexDigit (n / 16 % 16))
      (hexDigit (n % 16)) = some n := by
  have hdigit (m : Nat) := hexDigit?_hexDigit (m % 16) (Nat.mod_lt m (by decide))
  have hn : 16 * (16 * (16 * (16 * 0 + n / 4096 % 16) + n / 256 % 16) + n / 16 % 16) + n % 16 =
      n := by omega
  simp only [unit?, List.foldlM_cons, List.foldlM_nil, hdigit, Option.map_some, Option.bind_eq_bind,
    Option.bind_some, hn]
  rfl

/-- An escape of a unit is read as the unit. -/
theorem textUnits?_unitEscape {n : Nat} (h : n < 0x10000) (rest : List Char) :
    textUnits? (unitEscape n ++ rest) =
      (textUnits? rest).map fun r => (n :: r.1, r.2) := by
  simp only [unitEscape, List.cons_append, List.nil_append, textUnits?, unit?_hexDigit h,
    Option.bind_eq_bind, Option.bind_some]
  cases textUnits? rest <;> rfl

/-- A short escape is read as the character that it stands for. -/
theorem textUnits?_shortEscape {d c : Char} (hd : d ≠ 'u') (h : shortEscape? d = some c)
    (rest : List Char) :
    textUnits? ('\\' :: d :: rest) = (textUnits? rest).map fun r => (c.toNat :: r.1, r.2) := by
  rw [textUnits?.eq_def]
  split
  · contradiction
  · rename_i heq
    injection heq with hhead
    exact absurd hhead (by decide)
  · rename_i heq
    cases heq
    contradiction
  · rename_i heq
    cases heq
    rw [h]
    cases textUnits? rest <;> rfl
  · rename_i hno heq
    cases heq
    exact (hno d rest rfl rfl).elim

/-- A character that needs no escape is read as itself. -/
theorem textUnits?_plain {c : Char} (hquote : c ≠ '"') (hslash : c ≠ '\\') (h : 32 ≤ c.toNat)
    (rest : List Char) :
    textUnits? (c :: rest) = (textUnits? rest).map fun r => (c.toNat :: r.1, r.2) := by
  rw [textUnits?.eq_def]
  split
  · contradiction
  · rename_i heq
    cases heq
    contradiction
  · rename_i heq
    cases heq
    contradiction
  · rename_i heq
    cases heq
    contradiction
  · rename_i heq
    cases heq
    rw [if_neg fun hc => hc.elim hslash (Nat.not_lt.mpr h)]
    cases textUnits? rest <;> rfl

/-- The written form of a character is read as its units. -/
theorem textUnits?_escaped (c : Char) (rest : List Char) :
    textUnits? (escaped c ++ rest) =
      (textUnits? rest).map fun r => (Text.units c ++ r.1, r.2) := by
  have hshort {c d : Char} (hd : d ≠ 'u') (h : shortEscape? d = some c) (hc : c.toNat < 0x10000) :
      textUnits? (['\\', d] ++ rest) =
        (textUnits? rest).map fun r => (Text.units c ++ r.1, r.2) := by
    rw [Text.units, if_pos hc]
    exact textUnits?_shortEscape hd h rest
  unfold escaped
  -- the seven characters with short escapes
  iterate 7
    split
    · rename_i hc
      subst hc
      exact hshort (by decide) rfl (by decide)
  split
  · rename_i hquote hslash _ _ _ _ _ hc
    rw [Text.units, if_pos (by omega)]
    exact textUnits?_plain hquote hslash hc.1 rest
  split
  · rename_i hc
    rw [Text.units, if_pos hc]
    exact textUnits?_unitEscape hc rest
  · rename_i hc
    have hvalid := Text.toNat_valid c
    rw [Text.units, if_neg hc, List.append_assoc, textUnits?_unitEscape (by omega),
      textUnits?_unitEscape (by omega), Option.map_map]
    rfl

/-- The written forms of characters up to the closing quote are read as their units. -/
theorem textUnits?_flatMap (cs rest : List Char) :
    textUnits? (cs.flatMap escaped ++ '"' :: rest) = some (cs.flatMap Text.units, rest) := by
  induction cs with
  | nil => rw [List.flatMap_nil, List.nil_append, textUnits?, List.flatMap_nil]
  | cons c cs ih =>
    rw [List.flatMap_cons, List.append_assoc, textUnits?_escaped, ih, List.flatMap_cons]
    rfl

/-- A string in quotes is read as it was written. -/
theorem token?_quote (s : String) (rest : List Char) :
    token? (quote s ++ rest) = some (.text s, rest) := by
  have hunits : textUnits? (s.toList.flatMap escaped ++ ['"'] ++ rest) =
      some (s.toList.flatMap Text.units, rest) := by
    rw [List.append_assoc]
    exact textUnits?_flatMap s.toList rest
  rw [quote, List.cons_append, List.cons_append, token?, hunits]
  simp only [Option.bind_eq_bind, Option.bind_some, Text.ofUnits?_flatMap, String.ofList_toList]
  rfl

end Json

end Diagrams
