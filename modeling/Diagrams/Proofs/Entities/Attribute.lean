import Diagrams.Entities.Line
import Diagrams.Proofs.Text.Pieces

/-!
# Written attributes

An attribute of an entity as it is written on a line of its own: a type, a name, keys with commas
between them, and a comment in quotes.

**Main statement** (`attribute?_chars`): the line is read as the attribute that is written on it.

The keys are read one by one, each after white space and one comma at most, until what comes next is
no key. What follows the keys is the end of the line or a quote, and neither is taken for a key
(`key?_afterComma_commentChars`).
-/

namespace Diagrams.Entities

open Text

/-! ### What is written -/

/-- A type as it is written. -/
structure WrittenType where
  /-- Its name. -/
  name : Name
  /-- Whether empty square brackets follow. -/
  isList : Bool

/-- The characters of the type. -/
def WrittenType.chars (t : WrittenType) : List Char :=
  t.name.chars ++ if t.isList then ['[', ']'] else []

/-- A key after a comma. -/
structure FurtherKey where
  /-- White space before the comma. -/
  beforeComma : Space
  /-- White space after the comma. -/
  afterComma : Space
  /-- The key. -/
  key : Key

/-- The characters of the comma and the key. -/
def FurtherKey.chars (k : FurtherKey) : List Char :=
  k.beforeComma.chars ++ ',' :: (k.afterComma.chars ++ k.key.word.toList)

/-- The keys of an attribute with the white space before them. -/
structure WrittenKeys where
  /-- White space after the name. -/
  gap : Gap
  /-- The first key. -/
  first : Key
  /-- The others. -/
  more : List FurtherKey

/-- The characters of the keys. -/
def WrittenKeys.chars (ks : WrittenKeys) : List Char :=
  ks.gap.chars ++ (ks.first.word.toList ++ ks.more.flatMap FurtherKey.chars)

/-- The keys that are written. -/
def WrittenKeys.keys (ks : WrittenKeys) : List Key := ks.first :: ks.more.map FurtherKey.key

/-- A comment with the white space before it. -/
structure WrittenComment where
  /-- White space before the quote. -/
  before : Space
  /-- What stands between the quotes. -/
  text : List Char
  /-- There is no quote in it. -/
  quote_notMem : '"' ∉ text

/-- The characters of the comment. -/
def WrittenComment.chars (c : WrittenComment) : List Char :=
  c.before.chars ++ '"' :: (c.text ++ ['"'])

/-- An attribute as it is written on a line of its own. -/
structure WrittenAttribute where
  /-- The type. -/
  type : WrittenType
  /-- White space after the type. -/
  gap : Gap
  /-- The name. -/
  name : Name
  /-- The keys, when there are any. -/
  keys : Option WrittenKeys
  /-- The comment, when there is one. -/
  comment : Option WrittenComment

namespace WrittenAttribute

/-- What stands behind the keys. -/
def commentChars (a : WrittenAttribute) : List Char := (a.comment.map WrittenComment.chars).getD []

/-- What stands behind the name. -/
def keysChars (a : WrittenAttribute) : List Char :=
  (a.keys.map WrittenKeys.chars).getD [] ++ a.commentChars

/-- The characters on the line. -/
def chars (a : WrittenAttribute) : List Char :=
  a.type.chars ++ (a.gap.chars ++ (a.name.chars ++ a.keysChars))

/-- The attribute that is written. -/
def meaning (a : WrittenAttribute) : Attribute :=
  { type := String.ofList a.type.chars, name := a.name.text
    keys := ((a.keys.map WrittenKeys.keys).getD []).map .known
    comment := String.ofList ((a.comment.map WrittenComment.text).getD []) }

end WrittenAttribute

variable {cs rest : List Char}

/-! ### Types -/

/-- A type is split off whole. -/
theorem typeName?_append (t : WrittenType) (g : Gap) (cs : List Char) :
    typeName? (t.chars ++ (g.chars ++ cs)) = some (t.chars, g.chars ++ cs) := by
  obtain ⟨name, isList⟩ := t
  cases isList with
  | true =>
    have hstops : StopsName ('[' :: ']' :: (g.chars ++ cs)) := stopsName_cons (by decide)
    simp [typeName?, WrittenType.chars, name?_append name hstops]
  | false =>
    obtain ⟨b, more, hmore, hb, -⟩ := g.exists_eq_cons
    have hbracket : b ≠ '[' := by
      rintro rfl
      exact absurd hb (by decide)
    have hstops : StopsName (b :: (more ++ cs)) := stopsName_cons (isWord_eq_false_of_isBlank hb)
    simp [typeName?, WrittenType.chars, hmore, name?_append name hstops, hbracket]

/-! ### Keys -/

/-- Behind a comma another key is read before the others. -/
theorem keys_of_key? {k : Key} (h : key? (afterComma cs) = some (k, rest)) :
    keys cs = (k :: (keys rest).1, (keys rest).2) := by
  rw [keys]
  split
  · rename_i k' rest' h'
    rw [h] at h'
    simp only [Option.some.injEq, Prod.mk.injEq] at h'
    rw [h'.1, h'.2]
  · rename_i h'
    rw [h] at h'
    cases h'

/-- Where no key stands behind the comma no more keys are read. -/
theorem keys_of_key?_eq_none (h : key? (afterComma cs) = none) : keys cs = ([], cs) := by
  rw [keys]
  split
  · rename_i h'
    rw [h] at h'
    cases h'
  · rfl

/-- A key is recognised, whatever follows it. -/
theorem key?_word_append (k : Key) (rest : List Char) :
    key? (k.word.toList ++ rest) = some (k, rest) := by
  cases k <;> rfl

/-- A key starts with a letter, so nothing in front of it is white space or a comma. -/
theorem afterComma_space_word_append (s : Space) (k : Key) (rest : List Char) :
    afterComma (s.chars ++ (k.word.toList ++ rest)) = k.word.toList ++ rest := by
  rw [afterComma, Space.trimLeft_append]
  cases k <;> rfl

/-- A comma and the space around it are dropped before a key. -/
theorem afterComma_furtherKey_append (k : FurtherKey) (rest : List Char) :
    afterComma (k.chars ++ rest) = k.key.word.toList ++ rest := by
  have hcomma : trimLeft (',' :: (k.afterComma.chars ++ (k.key.word.toList ++ rest))) =
      ',' :: (k.afterComma.chars ++ (k.key.word.toList ++ rest)) := trimLeft_cons (by decide) _
  have hword : trimLeft (k.key.word.toList ++ rest) = k.key.word.toList ++ rest := by
    cases k.key <;> rfl
  simp [afterComma, FurtherKey.chars, Space.trimLeft_append, hcomma, hword]

/-- Keys behind commas are read as they are written, when no key follows them. -/
theorem keys_furtherKeys_append (ks : List FurtherKey) (h : key? (afterComma rest) = none) :
    keys (ks.flatMap FurtherKey.chars ++ rest) = (ks.map FurtherKey.key, rest) := by
  induction ks with
  | nil => exact keys_of_key?_eq_none h
  | cons k ks ih =>
    have hkey : key? (afterComma ((k :: ks).flatMap FurtherKey.chars ++ rest)) =
        some (k.key, ks.flatMap FurtherKey.chars ++ rest) := by
      rw [List.flatMap_cons, List.append_assoc, afterComma_furtherKey_append, key?_word_append]
    rw [keys_of_key? hkey, ih, List.map_cons]

/-- The keys of an attribute are read as they are written, when no key follows them. -/
theorem keys_writtenKeys_append (ks : WrittenKeys) (h : key? (afterComma rest) = none) :
    keys (ks.chars ++ rest) = (ks.keys, rest) := by
  have hkey : key? (afterComma (ks.chars ++ rest)) =
      some (ks.first, ks.more.flatMap FurtherKey.chars ++ rest) := by
    simp only [WrittenKeys.chars, List.append_assoc]
    rw [afterComma_space_word_append, key?_word_append]
  rw [keys_of_key? hkey, keys_furtherKeys_append ks.more h, WrittenKeys.keys]

/-! ### Comments -/

/-- Only the quote of a comment is left when the white space before it is taken away. -/
theorem trimLeft_writtenComment (c : WrittenComment) :
    trimLeft c.chars = '"' :: (c.text ++ ['"']) := by
  rw [WrittenComment.chars, Space.trimLeft_append]
  exact trimLeft_cons (by decide) _

/-- A comment is read as it is written. -/
theorem comment?_commentChars (a : WrittenAttribute) :
    comment? a.commentChars = some ((a.comment.map WrittenComment.text).getD []) := by
  unfold WrittenAttribute.commentChars
  cases a.comment with
  | none => rfl
  | some c =>
    have hnothing : trimLeft [] = [] := rfl
    simp [comment?, trimLeft_writtenComment, takeWhile_bne_append c.quote_notMem,
      dropWhile_bne_append c.quote_notMem, hnothing]

/-- What stands behind the keys is no further key. -/
theorem key?_afterComma_commentChars (a : WrittenAttribute) :
    key? (afterComma a.commentChars) = none := by
  unfold WrittenAttribute.commentChars
  cases a.comment with
  | none => rfl
  | some c => simp [afterComma, trimLeft_writtenComment, key?]

/-! ### Attributes -/

namespace WrittenAttribute

/-- The keys that are written are read, and the comment is left. -/
theorem keys_keysChars (a : WrittenAttribute) :
    Entities.keys a.keysChars = ((a.keys.map WrittenKeys.keys).getD [], a.commentChars) := by
  unfold keysChars
  cases a.keys with
  | none => exact keys_of_key?_eq_none (key?_afterComma_commentChars a)
  | some ks => exact keys_writtenKeys_append ks (key?_afterComma_commentChars a)

/-- A comment stands apart from the name before it. -/
theorem stopsName_commentChars (a : WrittenAttribute) : StopsName a.commentChars := by
  unfold commentChars
  cases a.comment with
  | none => exact stopsName_nil
  | some c => exact c.before.stopsName (stopsName_cons (by decide))

/-- Keys stand apart from the name before them. -/
theorem stopsName_keysChars (a : WrittenAttribute) : StopsName a.keysChars := by
  unfold keysChars
  cases a.keys with
  | none => exact stopsName_commentChars a
  | some ks =>
    rw [Option.map_some, Option.getD_some, WrittenKeys.chars, List.append_assoc]
    exact ks.gap.stopsName _

/-- **Main statement.** An attribute is read as it is written. -/
theorem attribute?_chars (a : WrittenAttribute) : attribute? a.chars = some a.meaning := by
  simp [attribute?, chars, typeName?_append, gap?_append, trimLeft_name,
    name?_append a.name a.stopsName_keysChars, keys_keysChars, comment?_commentChars, meaning,
    Name.text]

end WrittenAttribute

end Diagrams.Entities
