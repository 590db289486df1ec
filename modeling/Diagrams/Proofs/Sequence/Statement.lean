import Diagrams.Proofs.Reading.Padded
import Diagrams.Sequence.Scan

/-!
# Written statements of a sequence diagram

What may stand on a line of a sequence diagram, as it is written: `Statement` holds the parts with
the white space between them, and `Statement.chars` is the line.

**Main statement** (`Statement.ofText_chars`): a line is read as the statement that is written on it.

A declaration is tried first, and a message may start with the name `participant`. What tells them
apart is what follows the first run of word characters: a gap and a name in a declaration, an arrow
in a message (`declaration?_message`). The arrows start with one another, but none goes on with the
name of the receiver or the white space before it (`MessageArrow.ofStart?_token_append`).
-/

namespace Diagrams.Sequence

open Text

/-! ### What is written -/

/-- The keyword of a declaration in small letters. -/
def keyword (isActor : Bool) : List Char :=
  if isActor then "actor".toList else "participant".toList

/-- A keyword in letters of either case. -/
def Spelling (word : List Char) : Type := {k : List Char // k.map Char.toLower = word}

/-- The label in a declaration with what stands before it. -/
structure Alias where
  /-- White space after the name. -/
  before : Gap
  /-- The keyword. -/
  keyword : Spelling ['a', 's']
  /-- White space after the keyword. -/
  after : Gap
  /-- The label. -/
  label : Phrase

/-- The characters of the label and of what stands before it. -/
def Alias.chars (a : Alias) : List Char :=
  a.before.chars ++ (a.keyword.val ++ (a.after.chars ++ a.label.chars))

/-- A declaration as it is written. -/
structure Declaration where
  /-- Whether an actor is declared. -/
  isActor : Bool
  /-- The keyword. -/
  keyword : Spelling (keyword isActor)
  /-- White space after the keyword. -/
  gap : Gap
  /-- The name. -/
  name : Name
  /-- The label, when one is written. -/
  label : Option Alias

/-- What stands behind the name. -/
def Declaration.labelChars (d : Declaration) : List Char := (d.label.map Alias.chars).getD []

/-- The label, which is the name when none is written. -/
def Declaration.labelText (d : Declaration) : String :=
  match d.label with
  | some a => a.label.text
  | none => d.name.text

/-- A message as it is written. -/
structure WrittenMessage where
  /-- The sender. -/
  source : Name
  /-- White space before the arrow. -/
  beforeArrow : Space
  /-- The arrow. -/
  arrow : MessageArrow
  /-- White space after the arrow. -/
  afterArrow : Space
  /-- The receiver. -/
  target : Name
  /-- White space before the colon. -/
  beforeColon : Space
  /-- White space after the colon. -/
  afterColon : Space
  /-- The text. -/
  text : Phrase

/-- The colon and the text, with white space around the colon. -/
def WrittenMessage.textChars (m : WrittenMessage) : List Char :=
  m.beforeColon.chars ++ ':' :: (m.afterColon.chars ++ m.text.chars)

/-- What stands behind the arrow. -/
def WrittenMessage.targetChars (m : WrittenMessage) : List Char :=
  m.afterArrow.chars ++ (m.target.chars ++ m.textChars)

/-- What stands behind the sender. -/
def WrittenMessage.arrowChars (m : WrittenMessage) : List Char :=
  m.beforeArrow.chars ++ (m.arrow.token ++ m.targetChars)

/-- What stands on a line, without the white space at its ends. -/
inductive Statement where
  /-- A declaration. -/
  | declaration (d : Declaration)
  /-- A message. -/
  | message (m : WrittenMessage)

namespace Statement

/-- The characters on the line. -/
def chars : Statement → List Char
  | declaration d => d.keyword.val ++ (d.gap.chars ++ (d.name.chars ++ d.labelChars))
  | message m => m.source.chars ++ m.arrowChars

/-- What the line says. -/
def line : Statement → Line
  | declaration d => .declaration d.isActor d.name.text d.labelText
  | message m => .message m.source.text m.arrow m.target.text m.text.text

end Statement

/-! ### Keywords -/

variable {c w : Char} {cs rest word : List Char}

/-- A keyword is a run of word characters in letters of either case. -/
def Spelling.name (k : Spelling word) (hne : word ≠ []) (hword : ∀ w ∈ word, isWord w = true) :
    Name where
  chars := k.val
  ne_nil := by
    rintro hnil
    exact hne (by rw [← k.property, hnil, List.map_nil])
  isWord c hc := isWord_of_toLower (hword _ (k.property ▸ List.mem_map_of_mem hc))

/-- A keyword is recognised in letters of either case. -/
theorem afterLetters?_append (k : Spelling word) (rest : List Char) :
    afterLetters? word (k.val ++ rest) = some rest := by
  obtain ⟨k, rfl⟩ := k
  induction k with
  | nil => rfl
  | cons c k ih => simpa [afterLetters?, sameLetter] using ih

/-- What counts as a letter of a keyword is a word character. -/
theorem isWord_of_sameLetter (hw : isWord w = true) (h : sameLetter w c = true) :
    isWord c = true := by
  simp only [sameLetter, Bool.or_eq_true, Bool.and_eq_true, beq_iff_eq] at h
  rcases h with (h | ⟨-, rfl | rfl⟩) | ⟨-, rfl⟩
  · exact isWord_of_toLower (h ▸ hw)
  · decide +kernel
  · decide +kernel
  · decide +kernel

/-- What is recognised as a keyword is a run of word characters. -/
theorem exists_of_afterLetters? (hword : ∀ w ∈ word, isWord w = true)
    (h : afterLetters? word cs = some rest) :
    ∃ k, cs = k ++ rest ∧ ∀ c ∈ k, isWord c = true := by
  induction word generalizing cs with
  | nil =>
    rw [afterLetters?, Option.some.injEq] at h
    exact ⟨[], h, fun _ hc => absurd hc List.not_mem_nil⟩
  | cons w word ih =>
    cases cs with
    | nil => exact nomatch h
    | cons c cs =>
      rw [afterLetters?] at h
      split at h
      · rename_i hc
        obtain ⟨k, rfl, hk⟩ := ih (fun w hw => hword w (List.mem_cons_of_mem _ hw)) h
        refine ⟨c :: k, rfl, ?_⟩
        intro d hd
        rcases List.mem_cons.mp hd with rfl | hd
        · exact isWord_of_sameLetter (hword w List.mem_cons_self) hc
        · exact hk d hd
      · exact nomatch h

/-- The keyword of a participant is made of word characters. -/
theorem isWord_of_mem_keyword (isActor : Bool) : ∀ w ∈ keyword isActor, isWord w = true := by
  cases isActor <;> decide

/-- The keyword of a participant is not empty. -/
theorem keyword_ne_nil (isActor : Bool) : keyword isActor ≠ [] := by
  cases isActor <;> decide

/-- The keyword of a declaration tells whether an actor is declared. -/
theorem keyword?_append (isActor : Bool) (k : Spelling (keyword isActor)) (rest : List Char) :
    keyword? (k.val ++ rest) = some (isActor, rest) := by
  have hafter := afterLetters?_append k rest
  cases isActor with
  | false =>
    change afterLetters? "participant".toList (k.val ++ rest) = some rest at hafter
    rw [keyword?, hafter]
  | true =>
    change afterLetters? "actor".toList (k.val ++ rest) = some rest at hafter
    have hother : afterLetters? "participant".toList (k.val ++ rest) = none := by
      obtain ⟨k, hk⟩ := k
      cases k with
      | nil => exact absurd hk (by decide)
      | cons c k =>
        have hc : c.toLower = 'a' := (List.cons.inj hk).1
        simp [afterLetters?, sameLetter, hc]
    rw [keyword?, hother, hafter]
    rfl

/-- What is recognised as the keyword of a declaration is a run of word characters. -/
theorem exists_of_keyword? {isActor : Bool} (h : keyword? cs = some (isActor, rest)) :
    ∃ k, cs = k ++ rest ∧ ∀ c ∈ k, isWord c = true := by
  rw [keyword?] at h
  split at h
  · rename_i rest' hrest
    simp only [Option.some.injEq, Prod.mk.injEq] at h
    exact exists_of_afterLetters? (isWord_of_mem_keyword false) (h.2 ▸ hrest)
  · obtain ⟨rest', hrest, hpair⟩ := Option.map_eq_some_iff.mp h
    simp only [Prod.mk.injEq] at hpair
    exact exists_of_afterLetters? (isWord_of_mem_keyword true) (hpair.2 ▸ hrest)

/-! ### Declarations -/

/-- A label stands apart from the name before it. -/
theorem stopsName_labelChars (d : Declaration) : StopsName d.labelChars := by
  unfold Declaration.labelChars
  cases d.label with
  | none => exact stopsName_nil
  | some a => exact a.before.stopsName _

/-- The label of a declaration is read as it is written. -/
theorem alias?_labelChars (d : Declaration) :
    alias? d.labelChars = some (d.label.map fun a => a.label.chars) := by
  unfold Declaration.labelChars
  cases d.label with
  | none => rfl
  | some a =>
    have hne : a.chars ≠ [] := by
      simp [Alias.chars, a.before.ne_nil]
    have hkeyword : trimLeft (a.keyword.val ++ (a.after.chars ++ a.label.chars)) =
        a.keyword.val ++ (a.after.chars ++ a.label.chars) :=
      trimLeft_name (a.keyword.name (by decide) (by decide)) _
    have hlabel : trimLeft a.label.chars = a.label.chars := by
      simpa using a.label.trimLeft_append []
    simp only [Option.map_some, Option.getD_some, alias?, if_neg hne]
    simp [Alias.chars, gap?_append, hkeyword, afterLetters?_append, hlabel, a.label.ne_nil]

/-- A declaration is read as it is written. -/
theorem declaration?_declaration (d : Declaration) :
    declaration? (d.keyword.val ++ (d.gap.chars ++ (d.name.chars ++ d.labelChars))) =
      some (d.isActor, d.name.chars, d.label.map fun a => a.label.chars) := by
  simp [declaration?, keyword?_append, gap?_append, trimLeft_name,
    name?_append d.name (stopsName_labelChars d), alias?_labelChars]

/-! ### Messages -/

/-- An arrow is read as it is written, unless another point follows. -/
theorem MessageArrow.ofStart?_token_append (a : MessageArrow) (h : rest.head? ≠ some '>') :
    MessageArrow.ofStart? (a.token ++ rest) = some (a, rest) := by
  have hpoint : ∀ more, rest ≠ '>' :: more := by
    rintro more rfl
    exact h rfl
  obtain ⟨dashed, async⟩ := a
  cases dashed <;> cases async <;> simp [MessageArrow.token, MessageArrow.ofStart?]

/-- Neither a name nor white space starts with another character. -/
theorem head?_targetChars_ne (m : WrittenMessage) : m.targetChars.head? ≠ some '>' := by
  unfold WrittenMessage.targetChars
  intro h
  cases hspace : m.afterArrow.chars with
  | nil =>
    obtain ⟨c, cs, hcs, hc⟩ := m.target.head?_isWord m.textChars
    rw [hspace, List.nil_append, hcs, List.head?_cons, Option.some.injEq] at h
    exact absurd (h ▸ hc) (by decide)
  | cons b more =>
    rw [hspace, List.cons_append, List.head?_cons, Option.some.injEq] at h
    have hb := m.afterArrow.allBlank b (hspace ▸ List.mem_cons_self)
    exact absurd (h ▸ hb) (by decide)

/-- An arrow starts with a stroke. -/
theorem MessageArrow.exists_token_eq (a : MessageArrow) : ∃ more, a.token = '-' :: more := by
  obtain ⟨dashed, async⟩ := a
  cases dashed <;> exact ⟨_, rfl⟩

/-- Nothing but white space stands between a sender and the arrow. -/
theorem trimLeft_arrowChars (m : WrittenMessage) :
    trimLeft m.arrowChars = m.arrow.token ++ m.targetChars := by
  obtain ⟨more, hmore⟩ := m.arrow.exists_token_eq
  rw [WrittenMessage.arrowChars, Space.trimLeft_append, hmore]
  exact trimLeft_cons (by decide) _

/-- An arrow stands apart from the name before it. -/
theorem stopsName_arrowChars (m : WrittenMessage) : StopsName m.arrowChars := by
  obtain ⟨more, hmore⟩ := m.arrow.exists_token_eq
  apply m.beforeArrow.stopsName
  rw [hmore]
  exact stopsName_cons (by decide)

/-- A message is no declaration, whatever the name of its sender. -/
theorem declaration?_message (m : WrittenMessage) :
    declaration? (m.source.chars ++ m.arrowChars) = none := by
  rw [declaration?]
  cases hkeyword : keyword? (m.source.chars ++ m.arrowChars) with
  | none => rfl
  | some p =>
    obtain ⟨isActor, rest⟩ := p
    simp only [Option.bind_eq_bind, Option.bind_some]
    cases rest with
    | nil => rfl
    | cons b more =>
      by_cases hb : isBlank b = true
      · -- the sender is the run of word characters that was taken for the keyword
        have hstops : StopsName (b :: more) := stopsName_cons (isWord_eq_false_of_isBlank hb)
        obtain ⟨k, hk, hword⟩ := exists_of_keyword? hkeyword
        have hrest : b :: more = m.arrowChars := by
          rw [← dropWhile_isWord_append hword hstops, ← hk,
            dropWhile_isWord_append m.source.isWord (stopsName_arrowChars m)]
        obtain ⟨stroke, hstroke⟩ := m.arrow.exists_token_eq
        have hgap : gap? (b :: more) = some (m.arrow.token ++ m.targetChars) := by
          rw [gap?, if_pos hb, ← trimLeft_arrowChars, ← hrest, trimLeft, trimLeft,
            List.dropWhile_cons_of_pos hb]
        have hname : name? (m.arrow.token ++ m.targetChars) = none := by
          have hdash : isWord '-' = false := by decide
          simp [hstroke, name?, hdash]
        simp [hgap, hname]
      · simp [gap?, hb]

/-- A message is read as it is written. -/
theorem message?_message (m : WrittenMessage) :
    message? (m.source.chars ++ m.arrowChars) =
      some (m.source.chars, m.arrow, m.target.chars, m.text.chars) := by
  have hcolon : trimLeft (':' :: (m.afterColon.chars ++ m.text.chars)) =
      ':' :: (m.afterColon.chars ++ m.text.chars) := trimLeft_cons (by decide) _
  have htarget : StopsName m.textChars := m.beforeColon.stopsName (stopsName_cons (by decide))
  have htext : trimLeft m.text.chars = m.text.chars := by
    simpa using m.text.trimLeft_append []
  have hafter : trimLeft m.targetChars = m.target.chars ++ m.textChars := by
    rw [WrittenMessage.targetChars, Space.trimLeft_append, trimLeft_name]
  have hbefore : trimLeft m.textChars = ':' :: (m.afterColon.chars ++ m.text.chars) := by
    rw [WrittenMessage.textChars, Space.trimLeft_append, hcolon]
  simp [message?, name?_append m.source (stopsName_arrowChars m), trimLeft_arrowChars,
    MessageArrow.ofStart?_token_append m.arrow (head?_targetChars_ne m), hafter,
    name?_append m.target htarget, hbefore, after?, Space.trimLeft_append, htext, m.text.ne_nil]

/-! ### Lines -/

namespace Statement

/-- A statement is a line by itself. -/
theorem isBare_chars (s : Statement) : Padded.IsBare s.chars := by
  cases s with
  | declaration d =>
    apply Padded.IsBare.of_name (d.keyword.name (keyword_ne_nil _) (isWord_of_mem_keyword _))
    show ∀ c ∈ (d.keyword.val ++ (d.gap.chars ++ (d.name.chars ++ d.labelChars))).getLast?, _
    unfold Declaration.labelChars
    cases d.label with
    | none =>
      simpa using isBlank_getLast?_name d.name (d.keyword.val ++ d.gap.chars)
    | some a =>
      simpa [Alias.chars] using a.label.isBlank_getLast? (d.keyword.val ++ d.gap.chars ++
        d.name.chars ++ a.before.chars ++ a.keyword.val ++ a.after.chars)
  | message m =>
    apply Padded.IsBare.of_name
    simpa [WrittenMessage.arrowChars, WrittenMessage.targetChars, WrittenMessage.textChars] using
      m.text.isBlank_getLast? (m.source.chars ++ m.beforeArrow.chars ++ m.arrow.token ++
        m.afterArrow.chars ++ m.target.chars ++ m.beforeColon.chars ++ ':' :: m.afterColon.chars)

/-- **Main statement.** A line is read as the statement that is written on it. -/
theorem ofText_chars (s : Statement) : Line.ofText s.chars = s.line := by
  cases s with
  | declaration d =>
    have hname : trim d.name.chars = d.name.chars :=
      trim_eq_self (by simpa using isBlank_head?_name d.name [])
        (by simpa using isBlank_getLast?_name d.name [])
    rw [chars, Line.ofText, declaration?_declaration]
    cases hlabel : d.label with
    | none => simp [line, Declaration.labelText, hlabel, hname, Name.text]
    | some a => simp [line, Declaration.labelText, hlabel, a.label.trim_eq, Name.text, Phrase.text]
  | message m =>
    rw [chars, Line.ofText, declaration?_message, message?_message]
    simp [line, m.text.trim_eq, Name.text, Phrase.text]

end Statement

end Diagrams.Sequence
