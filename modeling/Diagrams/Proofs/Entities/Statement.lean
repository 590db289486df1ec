import Diagrams.Proofs.Entities.Attribute
import Diagrams.Proofs.Reading.Padded

/-!
# Written statements of an entity-relationship diagram

What may stand on a line of an entity-relationship diagram, as it is written: `Statement` holds the
parts with the white space between them, and `Statement.chars` is the line.

**Main statement** (`Statement.ofText_chars`): a line is read as the statement that is written on it.

Five kinds of line are tried one after the other, so each has to be refused before its turn. A line
opens a block only when a brace is all that follows its first name (`opening?_eq_none`). The marks
and links of relationships are written with strokes and points, and a shorthand holds neither, also
when its brace and the letter after it look like a mark (`relationship?_shorthand`). A name that
starts with a ring is not taken for a mark, since no mark goes on like a name (`mark?_target`).
-/

namespace Diagrams.Entities

open Text

/-! ### What is written -/

/-- An attribute in a shorthand. -/
structure ShortAttribute where
  /-- The type. -/
  type : Name
  /-- White space after the type. -/
  gap : Gap
  /-- The name. -/
  name : Name

namespace ShortAttribute

/-- The characters of the attribute. -/
def chars (a : ShortAttribute) : List Char := a.type.chars ++ (a.gap.chars ++ a.name.chars)

/-- The words of the attribute. -/
def words (a : ShortAttribute) : List (List Char) := [a.type.chars, a.name.chars]

/-- The attribute that is written. -/
def meaning (a : ShortAttribute) : Attribute := { type := a.type.text, name := a.name.text }

end ShortAttribute

/-- An entity with its attributes on one line. There is one attribute at least. -/
structure Shorthand where
  /-- The name of the entity. -/
  name : Name
  /-- White space before the opening brace. -/
  beforeBrace : Space
  /-- White space after the opening brace. -/
  afterBrace : Space
  /-- The first attribute. -/
  first : ShortAttribute
  /-- The others, each with the white space before it. -/
  more : List (Gap × ShortAttribute)
  /-- White space before the closing brace. -/
  beforeEnd : Space

namespace Shorthand

/-- The attributes in their order. -/
def attributes (s : Shorthand) : List ShortAttribute := s.first :: s.more.map (·.2)

/-- What stands between the braces. -/
def innerChars (s : Shorthand) : List Char :=
  s.afterBrace.chars ++
    (s.first.chars ++ (s.more.flatMap (fun x => x.1.chars ++ x.2.chars) ++ s.beforeEnd.chars))

/-- What stands behind the name. -/
def braceChars (s : Shorthand) : List Char := s.beforeBrace.chars ++ '{' :: (s.innerChars ++ ['}'])

end Shorthand

/-- The label of a relationship, with or without quotes around it. -/
structure Label where
  /-- The label. -/
  phrase : Phrase
  /-- There is no quote in it. -/
  quote_notMem : '"' ∉ phrase.chars
  /-- Whether quotes are written around it. -/
  isQuoted : Bool

/-- The characters of the label. -/
def Label.chars (l : Label) : List Char :=
  if l.isQuoted then '"' :: (l.phrase.chars ++ ['"']) else l.phrase.chars

/-- A mark, when one is written. -/
def markChars (m : Option Cardinality) : List Char := (m.map Cardinality.token).getD []

/-- The link of a relationship. -/
def linkToken (identifying : Bool) : List Char := if identifying then ['-', '-'] else ['.', '.']

/-- A relationship as it is written. -/
structure WrittenRelationship where
  /-- The entity where it starts. -/
  source : Name
  /-- White space after its name. -/
  beforeLink : Gap
  /-- The mark at the start, when there is one. -/
  startMark : Option Cardinality
  /-- Whether the link is drawn solid. -/
  identifying : Bool
  /-- The mark at the end, when there is one. -/
  endMark : Option Cardinality
  /-- White space before the other name. -/
  afterLink : Gap
  /-- The entity where it ends. -/
  target : Name
  /-- White space before the colon. -/
  beforeColon : Space
  /-- White space after the colon. -/
  afterColon : Space
  /-- The label. -/
  label : Label

namespace WrittenRelationship

/-- What stands behind the second name. -/
def labelChars (r : WrittenRelationship) : List Char :=
  r.beforeColon.chars ++ ':' :: (r.afterColon.chars ++ r.label.chars)

/-- What stands behind the link. -/
def endChars (r : WrittenRelationship) : List Char :=
  markChars r.endMark ++ (r.afterLink.chars ++ (r.target.chars ++ r.labelChars))

/-- What stands behind the first name and the white space after it. -/
def linkChars (r : WrittenRelationship) : List Char :=
  markChars r.startMark ++ (linkToken r.identifying ++ r.endChars)

/-- The relationship that is written, when it gets a name. Exactly one is meant where there is no
mark. -/
def meaning (r : WrittenRelationship) (id : String) : Relationship :=
  { id, source := r.source.text, target := r.target.text
    startMark := .known (r.startMark.getD .bb), endMark := .known (r.endMark.getD .bb)
    label := r.label.phrase.text, identifying := r.identifying }

end WrittenRelationship

/-- What stands on a line, without the white space at its ends. -/
inductive Statement where
  /-- The start of a block. -/
  | opening (name : Name) (beforeBrace : Space)
  /-- An attribute in a block. -/
  | row (a : WrittenAttribute)
  /-- The end of a block. -/
  | closing
  /-- An entity with its attributes. -/
  | shorthand (s : Shorthand)
  /-- A relationship. -/
  | relationship (r : WrittenRelationship)

namespace Statement

/-- The characters on the line. -/
def chars : Statement → List Char
  | opening name beforeBrace => name.chars ++ (beforeBrace.chars ++ ['{'])
  | row a => a.chars
  | closing => ['}']
  | shorthand s => s.name.chars ++ s.braceChars
  | relationship r => r.source.chars ++ (r.beforeLink.chars ++ r.linkChars)

/-- What the line says. -/
def line : Statement → Line
  | opening name _ => .blockStart name.text
  | row a => .attribute a.meaning
  | closing => .blockEnd
  | shorthand s => .entity s.name.text (s.attributes.map ShortAttribute.meaning)
  | relationship r => .relationship (r.meaning "")

/-- Whether the line stands in a block. -/
def isInside : Statement → Bool
  | row _ | closing => true
  | opening .. | shorthand _ | relationship _ => false

end Statement

variable {cs rest : List Char}

/-! ### Blocks -/

/-- A line that starts with a name ends no block. -/
theorem name_append_ne_brace (n : Name) (cs : List Char) : n.chars ++ cs ≠ ['}'] := by
  obtain ⟨c, run, hrun, hc⟩ := n.head?_isWord cs
  rw [hrun]
  rintro ⟨⟩
  exact absurd hc (by decide)

/-- A name with an opening brace opens a description. -/
theorem opening?_opening (n : Name) (s : Space) :
    opening? (n.chars ++ (s.chars ++ ['{'])) = some n.chars := by
  have hstops : StopsName (s.chars ++ ['{']) := s.stopsName (stopsName_cons (by decide))
  have hbrace : trimLeft ['{'] = ['{'] := by decide
  simp [opening?, name?_append n hstops, Space.trimLeft_append, hbrace]

/-- A line opens no block when something else than a brace follows its first name. -/
theorem opening?_eq_none (n : Name) (h : StopsName cs) (hne : trimLeft cs ≠ ['{']) :
    opening? (n.chars ++ cs) = none := by
  simp [opening?, name?_append n h, hne]

/-- An attribute opens no block: a bracket or a name follows its first name. -/
theorem opening?_attribute (a : WrittenAttribute) : opening? a.chars = none := by
  obtain ⟨⟨name, isList⟩, gap, attributeName, keys, comment⟩ := a
  simp only [WrittenAttribute.chars, WrittenType.chars, List.append_assoc]
  cases isList with
  | true =>
    have hstart : ∀ cs, trimLeft ('[' :: ']' :: cs) = '[' :: ']' :: cs :=
      fun cs => trimLeft_cons (by decide) _
    apply opening?_eq_none name (stopsName_cons (by decide))
    simp [hstart]
  | false =>
    apply opening?_eq_none name (gap.stopsName _)
    obtain ⟨c, run, hrun, hc⟩ := attributeName.head?_isWord
      (WrittenAttribute.keysChars ⟨⟨name, false⟩, gap, attributeName, keys, comment⟩)
    show trimLeft (gap.chars ++ (attributeName.chars ++ _)) ≠ ['{']
    rw [Space.trimLeft_append, trimLeft_name, hrun]
    rintro ⟨⟩
    exact absurd hc (by decide)

/-! ### Words -/

/-- The words of a short attribute come before the others. -/
theorem words_shortAttribute_append (a : ShortAttribute) (h : ∀ c ∈ rest.head?, isBlank c = true) :
    words (a.chars ++ rest) = a.words ++ words rest := by
  rw [ShortAttribute.chars, List.append_assoc, List.append_assoc,
    words_name_append a.type (isBlank_head?_gap_append a.gap _), words_space_append,
    words_name_append a.name h]
  rfl

/-- White space follows every attribute, or nothing. -/
theorem isBlank_head?_more (more : List (Gap × ShortAttribute)) (s : Space) :
    ∀ c ∈ (more.flatMap (fun x => x.1.chars ++ x.2.chars) ++ s.chars).head?, isBlank c = true := by
  cases more with
  | nil =>
    intro c hc
    exact s.allBlank c (List.mem_of_mem_head? hc)
  | cons x more =>
    rw [List.flatMap_cons, List.append_assoc, List.append_assoc]
    exact isBlank_head?_gap_append x.1 _

/-- The words of several attributes are the words of each. -/
theorem words_more (more : List (Gap × ShortAttribute)) (s : Space) :
    words (more.flatMap (fun x => x.1.chars ++ x.2.chars) ++ s.chars) =
      more.flatMap fun x => x.2.words := by
  induction more with
  | nil =>
    have hspace := words_space_append s []
    rwa [List.append_nil] at hspace
  | cons x more ih =>
    simp only [List.flatMap_cons, List.append_assoc]
    rw [words_space_append, words_shortAttribute_append x.2 (isBlank_head?_more more s), ih]

/-- The words between the braces are those of the attributes. -/
theorem words_innerChars (s : Shorthand) :
    words s.innerChars = s.attributes.flatMap ShortAttribute.words := by
  rw [Shorthand.innerChars, words_space_append,
    words_shortAttribute_append s.first (isBlank_head?_more s.more s.beforeEnd), words_more,
    Shorthand.attributes, List.flatMap_cons, List.flatMap_map]

/-- Two words make an attribute. -/
theorem pairAttributes_words (as : List ShortAttribute) :
    pairAttributes (as.flatMap ShortAttribute.words) = some (as.map ShortAttribute.meaning) := by
  induction as with
  | nil => rfl
  | cons a as ih => simp [ShortAttribute.words, pairAttributes, ih, ShortAttribute.meaning, Name.text]

/-! ### Shorthands -/

/-- A brace stands apart from the name before it. -/
theorem stopsName_braceChars (s : Shorthand) : StopsName s.braceChars :=
  s.beforeBrace.stopsName (stopsName_cons (by decide))

/-- Nothing but white space stands between a name and the brace. -/
theorem trimLeft_braceChars (s : Shorthand) :
    trimLeft s.braceChars = '{' :: (s.innerChars ++ ['}']) := by
  rw [Shorthand.braceChars, Space.trimLeft_append]
  exact trimLeft_cons (by decide) _

/-- A shorthand is read as it is written. -/
theorem shorthand?_shorthand (s : Shorthand) :
    shorthand? (s.name.chars ++ s.braceChars) =
      some (s.name.chars, s.attributes.map ShortAttribute.meaning) := by
  have hopen : after? ['{'] ('{' :: (s.innerChars ++ ['}'])) = some (s.innerChars ++ ['}']) :=
    after?_eq_some_iff.mpr rfl
  have hclose : before? ['}'] (s.innerChars ++ ['}']) = some s.innerChars :=
    before?_eq_some_iff.mpr rfl
  have hne : s.attributes.map ShortAttribute.meaning ≠ [] := by simp [Shorthand.attributes]
  simp [shorthand?, name?_append s.name (stopsName_braceChars s), trimLeft_braceChars, hopen, hclose,
    words_innerChars, pairAttributes_words, hne]

/-- A character that is neither white space nor of a name and no brace does not occur in a
shorthand. -/
theorem notMem_braceChars (s : Shorthand) {c : Char} (hword : isWord c = false)
    (hblank : isBlank c = false) (hopen : c ≠ '{') (hclose : c ≠ '}') : c ∉ s.braceChars := by
  have hname : ∀ n : Name, c ∉ n.chars := by
    intro n hc
    rw [n.isWord c hc] at hword
    exact absurd hword (by decide)
  have hspace : ∀ s : Space, c ∉ s.chars := by
    intro s hc
    rw [s.allBlank c hc] at hblank
    exact absurd hblank (by decide)
  simp [Shorthand.braceChars, Shorthand.innerChars, ShortAttribute.chars, hname, hspace, hopen,
    hclose]

/-! ### Marks and links -/

/-- The mark of a cardinality is read, whatever comes after it. -/
theorem mark?_token_append (m : Cardinality) (rest : List Char) :
    mark? (m.token ++ rest) = some (m, rest) := by
  cases m <;> rfl

/-- What is recognised as a mark is written as one. -/
theorem eq_append_of_mark? {m : Cardinality} (h : mark? cs = some (m, rest)) :
    cs = m.token ++ rest := by
  unfold mark? at h
  split at h
  · rename_i a b more
    obtain ⟨m', hm', hpair⟩ := Option.map_eq_some_iff.mp h
    simp only [Prod.mk.injEq] at hpair
    obtain ⟨rfl, rfl⟩ := hpair
    have htoken := List.find?_some hm'
    rw [beq_iff_eq] at htoken
    rw [htoken]
    rfl
  · exact nomatch h

/-- The link of a relationship is read, whatever comes after it. -/
theorem link?_linkToken_append (identifying : Bool) (rest : List Char) :
    link? (linkToken identifying ++ rest) = some (identifying, rest) := by
  cases identifying <;> rfl

/-- A link is no mark. -/
theorem mark?_linkToken_append (identifying : Bool) (rest : List Char) :
    mark? (linkToken identifying ++ rest) = none := by
  cases identifying <;> rfl

/-- There is no white space before a link. -/
theorem trimLeft_linkToken_append (identifying : Bool) (rest : List Char) :
    trimLeft (linkToken identifying ++ rest) = linkToken identifying ++ rest := by
  cases identifying <;> rfl

/-- No white space stands before the mark of a cardinality. -/
theorem trimLeft_token_append (m : Cardinality) (rest : List Char) :
    trimLeft (m.token ++ rest) = m.token ++ rest := by
  cases m <;> rfl

/-- Text without strokes and points holds no link. -/
theorem link?_eq_none (hstroke : '-' ∉ cs) (hpoint : '.' ∉ cs) : link? cs = none := by
  unfold link?
  split
  · exact absurd List.mem_cons_self hstroke
  · exact absurd List.mem_cons_self hpoint
  · rfl

/-- Nor does it hold a mark and a link. -/
theorem startMark?_eq_none (hstroke : '-' ∉ cs) (hpoint : '.' ∉ cs) : startMark? cs = none := by
  have hafter : ∀ c, c ∉ cs → c ∉ (markOrNone cs).2 := by
    intro c hc
    unfold markOrNone
    split
    · rename_i m rest hm
      rw [eq_append_of_mark? hm, List.mem_append, not_or] at hc
      exact fun h => hc.2 ((List.dropWhile_sublist _).subset h)
    · exact hc
  simp [startMark?, link?_eq_none (hafter '-' hstroke) (hafter '.' hpoint)]

/-- A shorthand is no relationship, also when its name ends with a ring or its brace is followed by
one. -/
theorem relationship?_shorthand (s : Shorthand) :
    relationship? (s.name.chars ++ s.braceChars) = none := by
  have hstroke : '-' ∉ s.braceChars :=
    notMem_braceChars s (by decide) (by decide) (by decide) (by decide)
  have hpoint : '.' ∉ s.braceChars :=
    notMem_braceChars s (by decide) (by decide) (by decide) (by decide)
  have hbehind : startMark? (trimLeft s.braceChars) = none :=
    startMark?_eq_none (fun h => hstroke ((List.dropWhile_sublist _).subset h))
      (fun h => hpoint ((List.dropWhile_sublist _).subset h))
  have hring : startMark? ('o' :: s.braceChars) = none :=
    startMark?_eq_none (by simp [hstroke]) (by simp [hpoint])
  simp [relationship?, start?, name?_append s.name (stopsName_braceChars s), hbehind, hring]

/-! ### Relationships -/

namespace WrittenRelationship

/-- The mark at the start and the link are read as they are written. -/
theorem startMark?_linkChars (r : WrittenRelationship) :
    startMark? r.linkChars = some (r.startMark, r.identifying, r.endChars) := by
  unfold linkChars
  cases r.startMark with
  | none =>
    simp [startMark?, markOrNone, markChars, mark?_linkToken_append, link?_linkToken_append]
  | some m =>
    simp [startMark?, markOrNone, markChars, mark?_token_append, trimLeft_linkToken_append,
      link?_linkToken_append]

/-- White space, if anything, stands before a mark or a link only. -/
theorem trimLeft_linkChars (r : WrittenRelationship) : trimLeft r.linkChars = r.linkChars := by
  unfold linkChars
  cases r.startMark with
  | none => exact trimLeft_linkToken_append r.identifying _
  | some m => exact trimLeft_token_append m _

/-- Behind the second name there is no bar and no brace. -/
theorem head?_labelChars (r : WrittenRelationship) :
    r.labelChars.head? ≠ some '|' ∧ r.labelChars.head? ≠ some '{' := by
  unfold labelChars
  cases hspace : r.beforeColon.chars with
  | nil => simp
  | cons b more =>
    have hb := r.beforeColon.allBlank b (hspace ▸ List.mem_cons_self)
    constructor <;> (rintro ⟨⟩; exact absurd hb (by decide))

/-- The second name is not taken for a mark, also when it starts with a ring. -/
theorem mark?_target (r : WrittenRelationship) :
    mark? (r.target.chars ++ r.labelChars) = none := by
  rw [Option.eq_none_iff_forall_ne_some]
  rintro ⟨m, rest⟩ hm
  have hchars := eq_append_of_mark? hm
  have hname : name? (r.target.chars ++ r.labelChars) = some (r.target.chars, r.labelChars) :=
    name?_append r.target (r.beforeColon.stopsName (stopsName_cons (by decide)))
  obtain ⟨c, cs, hhead, hc⟩ := r.target.head?_isWord r.labelChars
  -- only the ring of a mark is a word character, and a bar or a brace follows it
  have hring : ∃ b, m.token = ['o', b] ∧ isWord b = false ∧ (b = '|' ∨ b = '{') := by
    rw [hchars] at hhead
    cases m with
    | ob => exact ⟨'|', rfl, by decide, .inl rfl⟩
    | ol => exact ⟨'{', rfl, by decide, .inr rfl⟩
    | bb | bo | lo | ro | bl | rb | lb =>
      cases hhead
      exact absurd hc (by decide)
  obtain ⟨b, htoken, hb, hkind⟩ := hring
  have hsplit : name? ('o' :: b :: rest) = some (['o'], b :: rest) := by
    have ho : isWord 'o' = true := by decide
    simp [name?, ho, hb]
  rw [hchars, htoken, List.cons_append, List.cons_append, List.nil_append, hsplit,
    Option.some.injEq, Prod.mk.injEq] at hname
  have hlabel := head?_labelChars r
  rw [← hname.2, List.head?_cons] at hlabel
  rcases hkind with rfl | rfl
  · exact hlabel.1 rfl
  · exact hlabel.2 rfl

/-- The mark at the end is read as it is written. -/
theorem markOrNone_endChars (r : WrittenRelationship) :
    markOrNone (trimLeft r.endChars) = (r.endMark, r.target.chars ++ r.labelChars) := by
  have htarget : trimLeft (r.afterLink.chars ++ (r.target.chars ++ r.labelChars)) =
      r.target.chars ++ r.labelChars := by
    rw [Space.trimLeft_append, trimLeft_name]
  unfold endChars
  cases r.endMark with
  | none => simp [markChars, htarget, markOrNone, mark?_target]
  | some m =>
    simp [markChars, trimLeft_token_append, markOrNone, mark?_token_append, htarget]

end WrittenRelationship

/-- A label is read without its quotes. -/
theorem label?_append (s : Space) (l : Label) :
    label? (s.chars ++ l.chars) = some l.phrase.chars := by
  obtain ⟨phrase, hquote, isQuoted⟩ := l
  have hne := phrase.ne_nil
  cases isQuoted with
  | true =>
    have hstart : trimLeft ('"' :: (phrase.chars ++ ['"'])) = '"' :: (phrase.chars ++ ['"']) :=
      trimLeft_cons (by decide) _
    simp [label?, Label.chars, Space.trimLeft_append, hstart, takeWhile_bne_append hquote, hne]
  | false =>
    have hstart : trimLeft phrase.chars = phrase.chars := by simpa using phrase.trimLeft_append []
    have hhead : ∀ rest, phrase.chars ≠ '"' :: rest := by
      intro rest hrest
      exact hquote (hrest ▸ List.mem_cons_self)
    have htake : phrase.chars.takeWhile (· != '"') = phrase.chars :=
      List.takeWhile_eq_self_iff.mpr (bne_of_notMem hquote)
    simp [label?, Label.chars, Space.trimLeft_append, hstart, htake, hne]

/-- A relationship is read as it is written. -/
theorem relationship?_relationship (r : WrittenRelationship) :
    relationship? (r.source.chars ++ (r.beforeLink.chars ++ r.linkChars)) =
      some (r.meaning "") := by
  have hstart : start? (r.source.chars ++ (r.beforeLink.chars ++ r.linkChars)) =
      some (r.source.chars, r.startMark, r.identifying, r.endChars) := by
    simp [start?, name?_append r.source (r.beforeLink.stopsName _), Space.trimLeft_append,
      r.trimLeft_linkChars, r.startMark?_linkChars]
  have htarget : name? (r.target.chars ++ r.labelChars) = some (r.target.chars, r.labelChars) :=
    name?_append r.target (r.beforeColon.stopsName (stopsName_cons (by decide)))
  have hcolon : trimLeft r.labelChars = ':' :: (r.afterColon.chars ++ r.label.chars) := by
    rw [WrittenRelationship.labelChars, Space.trimLeft_append]
    exact trimLeft_cons (by decide) _
  simp [relationship?, hstart, r.markOrNone_endChars, htarget, hcolon, after?, label?_append,
    r.label.phrase.trim_eq, WrittenRelationship.meaning, Name.text, Phrase.text]

/-! ### Lines -/

/-- Keys end with a key. -/
theorem exists_writtenKeys_eq (ks : WrittenKeys) :
    ∃ (front : List Char) (k : Key), ks.chars = front ++ k.word.toList := by
  obtain ⟨gap, first, more⟩ := ks
  rcases List.eq_nil_or_concat more with rfl | ⟨others, k, rfl⟩
  · exact ⟨gap.chars, first, by simp [WrittenKeys.chars]⟩
  · refine ⟨gap.chars ++ first.word.toList ++ others.flatMap FurtherKey.chars ++
      k.beforeComma.chars ++ ',' :: k.afterComma.chars, k.key, ?_⟩
    simp [WrittenKeys.chars, FurtherKey.chars]

/-- An attribute ends with its comment, its last key or its name. -/
theorem isBlank_getLast?_attribute (a : WrittenAttribute) :
    ∀ c ∈ a.chars.getLast?, isBlank c = false := by
  obtain ⟨type, gap, name, keys, comment⟩ := a
  cases comment with
  | some c =>
    simpa [WrittenAttribute.chars, WrittenAttribute.keysChars, WrittenAttribute.commentChars,
      WrittenComment.chars] using isBlank_getLast?_concat (c := '"') (by decide)
        (WrittenAttribute.chars ⟨type, gap, name, keys, none⟩ ++ c.before.chars ++ '"' :: c.text)
  | none =>
    cases keys with
    | none =>
      simpa [WrittenAttribute.chars, WrittenAttribute.keysChars, WrittenAttribute.commentChars]
        using isBlank_getLast?_name name (type.chars ++ gap.chars)
    | some ks =>
      obtain ⟨front, k, hks⟩ := exists_writtenKeys_eq ks
      have hword : ∀ c ∈ k.word.toList.getLast?, isBlank c = false := by
        cases k <;> exact isBlank_getLast?_concat (c := 'K') (by decide) [_]
      have hne : k.word.toList ≠ [] := by
        cases k <;> decide
      simpa [WrittenAttribute.chars, WrittenAttribute.keysChars, WrittenAttribute.commentChars, hks]
        using isBlank_getLast?_append hne hword (type.chars ++ gap.chars ++ name.chars ++ front)

/-- A label ends with a quote or with its last character. -/
theorem isBlank_getLast?_label (l : Label) (front : List Char) :
    ∀ c ∈ (front ++ l.chars).getLast?, isBlank c = false := by
  obtain ⟨phrase, hquote, isQuoted⟩ := l
  cases isQuoted with
  | true =>
    simpa [Label.chars] using
      isBlank_getLast?_concat (c := '"') (by decide) (front ++ '"' :: phrase.chars)
  | false => exact phrase.isBlank_getLast? front

namespace Statement

/-- A statement is a line by itself. -/
theorem isBare_chars (s : Statement) : Padded.IsBare s.chars := by
  cases s with
  | opening name beforeBrace =>
    apply Padded.IsBare.of_name
    simpa using
      isBlank_getLast?_concat (c := '{') (by decide) (name.chars ++ beforeBrace.chars)
  | row a =>
    rw [chars, WrittenAttribute.chars, WrittenType.chars, List.append_assoc]
    apply Padded.IsBare.of_name
    have hlast := isBlank_getLast?_attribute a
    rwa [WrittenAttribute.chars, WrittenType.chars, List.append_assoc] at hlast
  | closing =>
    refine ⟨List.cons_ne_nil _ _, ?_, isBlank_getLast?_concat (by decide) []⟩
    rintro c ⟨⟩
    exact ⟨by decide, by decide⟩
  | shorthand s =>
    apply Padded.IsBare.of_name
    simpa [Shorthand.braceChars] using isBlank_getLast?_concat (c := '}') (by decide)
      (s.name.chars ++ s.beforeBrace.chars ++ '{' :: s.innerChars)
  | relationship r =>
    apply Padded.IsBare.of_name
    simpa [WrittenRelationship.linkChars, WrittenRelationship.endChars,
      WrittenRelationship.labelChars] using isBlank_getLast?_label r.label (r.source.chars ++
        r.beforeLink.chars ++ markChars r.startMark ++ linkToken r.identifying ++
        markChars r.endMark ++ r.afterLink.chars ++ r.target.chars ++ r.beforeColon.chars ++
        ':' :: r.afterColon.chars)

/-- **Main statement.** A line is read as the statement that is written on it. -/
theorem ofText_chars (s : Statement) : Line.ofText s.isInside s.chars = s.line := by
  cases s with
  | opening name beforeBrace =>
    simp [chars, Line.ofText, name_append_ne_brace, opening?_opening, line, Name.text]
  | row a =>
    have hbrace : a.chars ≠ ['}'] := by
      rw [WrittenAttribute.chars, WrittenType.chars, List.append_assoc]
      exact name_append_ne_brace a.type.name _
    simp [chars, isInside, Line.ofText, hbrace, opening?_attribute, a.attribute?_chars, line]
  | closing => rfl
  | shorthand s =>
    have hopening : opening? (s.name.chars ++ s.braceChars) = none :=
      opening?_eq_none s.name (stopsName_braceChars s) (by simp [trimLeft_braceChars])
    simp [chars, isInside, Line.ofText, name_append_ne_brace, hopening, Line.ofOther,
      relationship?_shorthand, shorthand?_shorthand, line, Name.text]
  | relationship r =>
    have hlink : trimLeft (r.beforeLink.chars ++ r.linkChars) ≠ ['{'] := by
      rw [Space.trimLeft_append, r.trimLeft_linkChars]
      intro h
      have hlength := congrArg List.length h
      have htoken : (linkToken r.identifying).length = 2 := by
        cases r.identifying <;> rfl
      simp [WrittenRelationship.linkChars, htoken] at hlength
      omega
    have hopening : opening? (r.source.chars ++ (r.beforeLink.chars ++ r.linkChars)) = none :=
      opening?_eq_none r.source (r.beforeLink.stopsName _) hlink
    simp [chars, isInside, Line.ofText, name_append_ne_brace, hopening, Line.ofOther,
      relationship?_relationship, line]

/-- The last letter of a name, a brace and the letter after it are no marks. -/
example : Line.ofText false "zoo{o x}".toList = .entity "zoo" [{ type := "o", name := "x" }] := by
  decide

end Statement

end Diagrams.Entities
