import Diagrams.Proofs.Flowchart.Written

/-!
# Lines of a flowchart are read as they are written

**Main statement** (`Statement.ofText_chars`): a line is read as the statement that is written on it.

Two facts make the splits of a line unique besides those about shapes and names.

* No link starts with a closing bracket, so a shape that is cut too early leaves no link
  (`link?_of_isClosing`).
* No arrow starts with another one but the dotted arrow, which is tried before its open form
  (`Arrow.ofStart?_token_append`).

White space around the line is trimmed away, since a statement with content neither starts nor ends
with any (`Statement.trim_line`).
-/

namespace Diagrams

open Text

namespace Flowchart

variable {c d : Char} {cs rest : List Char}

/-! ### Targets -/

/-- A mention with semicolons behind it does not end with white space. -/
theorem isBlank_getLast?_target (m : Mention) (n : Nat) (front : List Char) :
    ∀ c ∈ (front ++ (m.chars ++ List.replicate n ';')).getLast?, isBlank c = false := by
  cases n with
  | zero =>
    obtain ⟨before, d, hlast, hd⟩ := exists_mention_concat m
    have hblank := hd.elim isBlank_eq_false_of_isWord isBlank_eq_false_of_isClosing
    simpa [hlast, ← List.append_assoc] using hblank
  | succ n =>
    rw [List.replicate_succ', ← List.append_assoc, ← List.append_assoc, List.getLast?_concat]
    simp
    decide

/-- White space and semicolons around a target are dropped. -/
theorem bareTarget_mention (m : Mention) (n : Nat) :
    bareTarget (m.chars ++ List.replicate n ';') = m.chars := by
  have htrim : ∀ n, trim (m.chars ++ List.replicate n ';') = m.chars ++ List.replicate n ';' := by
    intro n
    apply trim_eq_self
    · rw [Mention.chars, List.append_assoc]
      exact isBlank_head?_name m.name _
    · exact isBlank_getLast?_target m n []
  have hself : trim m.chars = m.chars := by
    simpa using htrim 0
  have hdrop : dropTrailing (· == ';') (m.chars ++ List.replicate n ';') = m.chars := by
    obtain ⟨front, d, hlast, hd⟩ := exists_mention_concat m
    rw [dropTrailing_append_of_all (by simp)]
    apply dropTrailing_eq_self
    have hsemicolon : d ≠ ';' := by
      rintro rfl
      revert hd
      decide
    simpa [hlast] using hsemicolon
  rw [bareTarget, htrim, hdrop, hself]

/-- A target is read as it is written. -/
theorem ofText?_mention (m : Mention) (n : Nat) :
    Target.ofText? (m.chars ++ List.replicate n ';') = some m.target := by
  have hname := name?_mention m stopsName_nil
  rw [List.append_nil, List.append_nil] at hname
  have hshape : (if isWhole 0 m.fragment then some m.fragment else none) =
      m.shape.map WrittenShape.fragment := by
    unfold Mention.fragment
    cases m.shape with
    | none => rfl
    | some w => simp [isWhole_fragment w (Nat.zero_le 1)]
  simp [Target.ofText?, bareTarget_mention, hname, hshape, Mention.target, Name.text]

/-- Text on one line is left as it is. -/
theorem chomp_eq_self (h : '\n' ∉ cs) : chomp cs = cs := by
  rw [chomp]
  cases hbefore : before? ['\n'] cs with
  | none => rfl
  | some body =>
    rw [before?_eq_some_iff.mp hbefore] at h
    simp at h

/-- The text of a target is found behind white space, with all that stands on the line. -/
theorem targetText?_connection (c : Connection) (hrest : '\n' ∉ rest) :
    targetText? (c.beforeTarget.chars ++ (c.targetChars ++ rest)) =
      some (c.targetChars ++ rest) := by
  have hstart : trimLeft (c.targetChars ++ rest) = c.targetChars ++ rest := by
    apply trimLeft_eq_self
    rw [Connection.targetChars, Mention.chars, List.append_assoc, List.append_assoc]
    exact isBlank_head?_name c.target.name _
  have hline : '\n' ∉ c.targetChars ++ rest := by
    simp [Connection.targetChars, newline_notMem_mention, hrest]
  rw [targetText?, Space.trimLeft_append, hstart, line?, chomp_eq_self hline, if_neg hline]

/-! ### Links -/

/-- The bar that opens a label, white space or a name stands behind an arrow. -/
theorem labelledChars_cases (c : Connection) :
    (∃ l rest, c.labelledChars = '|' :: rest ∧ c.label = some l) ∨
      c.label = none ∧ ∃ d rest, c.labelledChars = d :: rest ∧
        (isBlank d = true ∨ isWord d = true) := by
  unfold Connection.labelledChars
  cases c.label with
  | some l => exact .inl ⟨l, _, rfl, rfl⟩
  | none =>
    refine .inr ⟨rfl, ?_⟩
    cases hspace : c.beforeTarget.chars with
    | nil =>
      obtain ⟨d, rest, hd, hword⟩ :=
        c.target.name.head?_isWord (c.target.fragment ++ List.replicate c.semicolons ';')
      refine ⟨d, rest, ?_, .inr hword⟩
      rw [← hd, Connection.targetChars, Mention.chars]
      simp
    | cons d more =>
      refine ⟨d, more ++ c.targetChars, by simp, .inl (c.beforeTarget.allBlank d ?_)⟩
      simp [hspace]

/-- The label and the target are split where they were put together. -/
theorem labelled?_connection (c : Connection) (hrest : '\n' ∉ rest) :
    labelled? (c.labelledChars ++ rest) = some (c.labelText, c.targetChars ++ rest) := by
  have htarget := targetText?_connection c hrest
  cases hlabel : c.label with
  | some l =>
    have hchars : c.labelledChars ++ rest =
        '|' :: (l.val ++ '|' :: (c.beforeTarget.chars ++ (c.targetChars ++ rest))) := by
      simp [Connection.labelledChars, hlabel]
    have htake := takeWhile_bne_append l.property
      (c.beforeTarget.chars ++ (c.targetChars ++ rest))
    have hdrop := dropWhile_bne_append l.property
      (c.beforeTarget.chars ++ (c.targetChars ++ rest))
    simp only [hchars, labelled?, hdrop, htarget, htake, Connection.labelText, hlabel,
      Option.map_some, Option.getD_some]
  | none =>
    have hchars : c.labelledChars ++ rest =
        c.beforeTarget.chars ++ (c.targetChars ++ rest) := by
      simp [Connection.labelledChars, hlabel]
    have hbar : ∀ more, c.labelledChars ++ rest ≠ '|' :: more := by
      intro more hmore
      rcases labelledChars_cases c with ⟨l, _, _, hl⟩ | ⟨_, d, later, hd, hkind⟩
      · simp [hlabel] at hl
      · rw [hd, List.cons_append, List.cons.injEq] at hmore
        rw [hmore.1] at hkind
        revert hkind
        decide
    rw [labelled?, hchars, htarget]
    · simp [Connection.labelText, hlabel]
    · exact hbar

/-- An arrow is read as it is written, unless a dotted line without a head meets one. -/
theorem Arrow.ofStart?_token_append (a : Arrow) (h : rest.head? ≠ some '>') :
    Arrow.ofStart? (a.token ++ rest) = some (a, rest) := by
  cases a with
  | dottedOpen =>
    cases rest with
    | nil => rfl
    | cons c rest =>
      have hc : '>' ≠ c := by
        rintro rfl
        exact h rfl
      simp [Arrow.ofStart?, Arrow.all, Arrow.token, after?, hc]
  | _ => simp [Arrow.ofStart?, Arrow.all, Arrow.token, after?]

/-- The link of a connection is read as it is written. -/
theorem link?_connection (c : Connection) (hrest : '\n' ∉ rest) :
    link? (c.linkChars ++ rest) = some (c.arrow, c.labelText, c.targetChars ++ rest) := by
  have hhead : (c.labelledChars ++ rest).head? ≠ some '>' := by
    rcases labelledChars_cases c with ⟨l, more, hmore, -⟩ | ⟨-, d, more, hmore, hd⟩
    · simp [hmore]
    · rw [hmore, List.cons_append, List.head?_cons]
      rintro hgt
      rw [Option.some.inj hgt] at hd
      revert hd
      decide
  have hstart : trimLeft (c.arrow.token ++ (c.labelledChars ++ rest)) =
      c.arrow.token ++ (c.labelledChars ++ rest) := by
    apply trimLeft_eq_self
    cases c.arrow <;> simp [Arrow.token] <;> decide
  simp [link?, Connection.linkChars, Space.trimLeft_append, hstart,
    Arrow.ofStart?_token_append c.arrow hhead, labelled?_connection c hrest]

/-- No link starts with a closing mark. -/
theorem link?_of_isClosing (h : isClosing c = true) : link? (c :: cs) = none := by
  have hstart : trimLeft (c :: cs) = c :: cs := by
    apply trimLeft_eq_self
    simpa using isBlank_eq_false_of_isClosing h
  have hnone : Arrow.ofStart? (c :: cs) = none := by
    rcases isClosing_cases h with rfl | rfl | rfl <;>
      simp [Arrow.ofStart?, Arrow.all, Arrow.token, after?]
  simp [link?, hstart, hnone]

/-! ### Lines -/

/-- An arrow, with or without white space before it, ends the name before it and opens no shape. -/
theorem arrow_head? (s : Space) (a : Arrow) (rest : List Char)
    (h : d ∈ (s.chars ++ (a.token ++ rest)).head?) : isWord d = false ∧ isOpening d = false := by
  cases hspace : s.chars with
  | nil =>
    rw [hspace, List.nil_append] at h
    cases a <;> simp [Arrow.token] at h <;> subst h <;> decide
  | cons b more =>
    have hb : isBlank b = true := s.allBlank b (hspace ▸ List.mem_cons_self)
    obtain rfl : b = d := by simpa [hspace] using h
    refine ⟨isWord_eq_false_of_isBlank hb, ?_⟩
    rw [Bool.eq_false_iff]
    intro hopen
    rw [isBlank_eq_false_of_isOpening hopen] at hb
    exact Bool.false_ne_true hb

/-- The link of a connection ends the name before it and opens no shape. -/
theorem linkChars_head? (c : Connection) (rest : List Char) (h : d ∈ (c.linkChars ++ rest).head?) :
    isWord d = false ∧ isOpening d = false := by
  rw [Connection.linkChars, List.append_assoc, List.append_assoc] at h
  exact arrow_head? c.beforeArrow c.arrow _ h

/-- The parts of a connection are read as they are written. -/
theorem connection?_connection (c : Connection) (hrest : '\n' ∉ rest) :
    connection? (c.source.chars ++ (c.linkChars ++ rest)) = some (c.source.name.chars,
      c.source.shape.map WrittenShape.fragment, c.arrow, c.labelText, c.targetChars ++ rest) := by
  have hname := name?_mention c.source fun d hd => (linkChars_head? c rest hd).1
  have hlink := link?_connection c hrest
  have hfound : (shapeSplits (c.source.fragment ++ (c.linkChars ++ rest))).findSome?
      (fun s => (link? s.2).map fun l => (s.1, l)) =
        some (c.source.shape.map WrittenShape.fragment, c.arrow, c.labelText,
          c.targetChars ++ rest) := by
    unfold Mention.fragment
    cases c.source.shape with
    | none =>
      have hsplits := shapeSplits_of_not_isOpening fun d hd => (linkChars_head? c rest hd).2
      simp [hsplits, hlink]
    | some w =>
      obtain ⟨early, hsplits, hearly⟩ := shapeSplits_fragment w (c.linkChars ++ rest)
      have hnone : early.findSome? (fun s => (link? s.2).map fun l => (s.1, l)) = none := by
        rw [List.findSome?_eq_none_iff]
        intro s hs
        obtain ⟨d, cs, hd, hclosing⟩ := hearly s hs
        rw [hd, link?_of_isClosing hclosing, Option.map_none]
      simp [hsplits, List.findSome?_append, hnone, hlink]
  simp [connection?, hname, hfound]

/-- A declaration is no connection: behind its shape nothing is left. -/
theorem connection?_declaration (n : Name) (w : WrittenShape) :
    connection? (n.chars ++ w.fragment) = none := by
  have hname := name?_mention ⟨n, some w⟩ stopsName_nil
  simp only [Mention.chars, Mention.fragment, Option.map_some, Option.getD_some,
    List.append_nil] at hname
  obtain ⟨early, hsplits, hearly⟩ := shapeSplits_fragment w []
  have hnone : (shapeSplits w.fragment).findSome?
      (fun s => (link? s.2).map fun l => (s.1, l)) = none := by
    rw [List.append_nil] at hsplits
    rw [hsplits, List.findSome?_eq_none_iff]
    intro s hs
    rcases List.mem_append.mp hs with hs | hs
    · obtain ⟨d, cs, hd, hclosing⟩ := hearly s hs
      rw [hd, link?_of_isClosing hclosing, Option.map_none]
    · obtain rfl : s = (some w.fragment, []) := by simpa [cuts] using hs
      rfl
  simp [connection?, hname, hnone]

/-- A declaration is read as it is written. -/
theorem declaration?_declaration (n : Name) (w : WrittenShape) :
    declaration? (n.chars ++ w.fragment) = some (n.chars, w.fragment) := by
  have hname := name?_mention ⟨n, some w⟩ stopsName_nil
  simp only [Mention.chars, Mention.fragment, Option.map_some, Option.getD_some,
    List.append_nil] at hname
  simp [declaration?, hname, chomp_eq_self (newline_notMem_fragment w), isWhole_fragment w le_rfl]

/-- A line that starts with another name starts no group. -/
theorem afterGroupKeyword?_eq_none {n : Name} (hn : n.chars ≠ groupKeyword.chars)
    (h : StopsName rest) : afterGroupKeyword? (n.chars ++ rest) = none := by
  unfold afterGroupKeyword?
  cases hafter : after? "subgraph".toList (n.chars ++ rest) with
  | none => rfl
  | some rest' =>
    by_cases hword : rest'.head?.any isWord = true
    · simp [hword]
    · -- the line would start with both names
      have hstops : StopsName rest' := by
        intro c hc
        rw [Option.mem_def] at hc
        simpa [hc] using hword
      have heq := Name.eq_of_append_eq (m := groupKeyword) h hstops (after?_eq_some_iff.mp hafter)
      exact absurd heq hn

/-- White space or a bracket ends the name of a group. -/
theorem stopsName_labelChars (o : Opener) : StopsName o.labelChars := by
  unfold Opener.labelChars
  cases o.label with
  | none => exact stopsName_nil
  | some p =>
    obtain ⟨s, l⟩ := p
    show StopsName (s.chars ++ '[' :: (l.val ++ [']']))
    exact s.stopsName (stopsName_cons (by decide))

/-- A group's start is read as it is written. -/
theorem groupHeader?_opener (o : Opener) :
    groupHeader? (o.gap.chars ++ (o.name.chars ++ o.labelChars)) =
      some (o.name.chars, o.labelText) := by
  have hgap : gap? (o.gap.chars ++ (o.name.chars ++ o.labelChars)) =
      some (o.name.chars ++ o.labelChars) := by
    rw [gap?_append ⟨o.gap, o.gap_ne_nil⟩, trimLeft_name]
  have hname := name?_append o.name (stopsName_labelChars o)
  simp only [groupHeader?, hgap, Option.bind_eq_bind, Option.bind_some, hname]
  unfold Opener.labelChars Opener.labelText
  cases o.label with
  | none => rfl
  | some p =>
    obtain ⟨s, l, hl⟩ := p
    have hstart : trimLeft (s.chars ++ '[' :: (l ++ [']'])) = '[' :: (l ++ [']']) := by
      rw [Space.trimLeft_append]
      exact trimLeft_cons (by decide) _
    have htake := takeWhile_bne_append hl []
    simp only [hstart, htake]
    by_cases hnil : l = []
    · simp [hnil]
    · simp [hnil]

/-- A connection ends with its target. -/
theorem exists_linkChars_eq (c : Connection) : ∃ front, c.linkChars = front ++ c.targetChars := by
  unfold Connection.linkChars Connection.labelledChars
  cases c.label with
  | some l =>
    exact ⟨c.beforeArrow.chars ++ c.arrow.token ++ '|' :: (l.val ++ '|' :: c.beforeTarget.chars),
      by simp⟩
  | none => exact ⟨c.beforeArrow.chars ++ c.arrow.token ++ c.beforeTarget.chars, by simp⟩

/-- A group's start does not end with white space. -/
theorem isBlank_getLast?_opener (o : Opener) (front : List Char) :
    ∀ c ∈ (front ++ (o.name.chars ++ o.labelChars)).getLast?, isBlank c = false := by
  unfold Opener.labelChars
  cases o.label with
  | none =>
    have hlast := isBlank_getLast?_target ⟨o.name, none⟩ 0 front
    simpa only [Mention.chars, Mention.fragment, Option.map_none, Option.getD_none,
      List.replicate_zero, List.append_nil] using hlast
  | some p =>
    obtain ⟨s, l⟩ := p
    show ∀ c ∈ (front ++ (o.name.chars ++ (s.chars ++ '[' :: (l.val ++ [']'])))).getLast?, _
    simp only [← List.cons_append, ← List.append_assoc, List.getLast?_concat]
    simp
    decide

/-- A name with something behind it is not the keyword of a group's end. -/
theorem ne_end (n : Name) (h : StopsName rest) (hrest : rest ≠ []) :
    n.chars ++ rest ≠ ['e', 'n', 'd'] := by
  intro heq
  have hname := name?_append n h
  have hend : name? ['e', 'n', 'd'] = some (['e', 'n', 'd'], []) := by decide
  rw [heq, hend, Option.some.injEq, Prod.mk.injEq] at hname
  exact hrest hname.2.symm

/-- A connection starts no group. -/
theorem afterGroupKeyword?_connection (c : Connection) (rest : List Char) :
    afterGroupKeyword? (c.source.chars ++ (c.linkChars ++ rest)) = none := by
  have hlink : StopsName (c.linkChars ++ rest) := fun d hd => (linkChars_head? c rest hd).1
  rw [Mention.chars, List.append_assoc]
  exact afterGroupKeyword?_eq_none c.source_ne (stopsName_fragment c.source hlink)

/-- A connection does not end a group. -/
theorem ne_end_of_connection? {parts} (h : connection? cs = some parts) :
    cs ≠ ['e', 'n', 'd'] := by
  rintro rfl
  have hnone : connection? ['e', 'n', 'd'] = none := by decide
  exact nomatch hnone.symm.trans h

namespace Statement

variable {s : Statement}

/-- Only nothing and comments are without content. -/
theorem eq_of_not_hasContent (h : s.hasContent = false) :
    s = blank ∨ ∃ text, s = comment text := by
  cases s with
  | blank => exact .inl rfl
  | comment text => exact .inr ⟨text, rfl⟩
  | _ => exact absurd h (by simp [hasContent])

/-- A statement with content starts with a word character. -/
theorem exists_chars_eq_cons (h : s.hasContent = true) :
    ∃ c cs, s.chars = c :: cs ∧ isWord c = true := by
  cases s with
  | blank => exact absurd h (by decide)
  | comment text => exact absurd h (by simp [hasContent])
  | closer => exact ⟨'e', ['n', 'd'], rfl, by decide⟩
  | connection c =>
    rw [chars, Mention.chars, List.append_assoc]
    exact c.source.name.head?_isWord _
  | declaration name _ w => exact name.head?_isWord w.fragment
  | opener o => exact groupKeyword.head?_isWord _

/-- A statement with content does not end with white space. -/
theorem isBlank_getLast? (h : s.hasContent = true) :
    ∀ c ∈ s.chars.getLast?, isBlank c = false := by
  cases s with
  | blank => exact absurd h (by decide)
  | comment text => exact absurd h (by simp [hasContent])
  | closer => exact isBlank_getLast?_concat (c := 'd') (by decide) ['e', 'n']
  | connection c =>
    obtain ⟨front, hfront⟩ := exists_linkChars_eq c
    rw [chars, hfront, ← List.append_assoc]
    exact isBlank_getLast?_target c.target c.semicolons _
  | declaration name _ w =>
    rw [chars]
    have hlast := isBlank_getLast?_target ⟨name, some w⟩ 0 []
    simpa only [Mention.chars, Mention.fragment, Option.map_some, Option.getD_some,
      List.replicate_zero, List.append_nil, List.nil_append] using hlast
  | opener o =>
    rw [chars, ← List.append_assoc]
    exact isBlank_getLast?_opener o _

/-- What is trimmed off a line is the white space around the statement. -/
theorem trim_line (h : s.hasContent = true) (before after : Space) :
    trim (before.chars ++ (s.chars ++ after.chars)) = s.chars := by
  obtain ⟨c, cs, hchars, hc⟩ := exists_chars_eq_cons h
  rw [trim_append_left before.allBlank, trim_append_right after.allBlank]
  apply trim_eq_self
  · simpa [hchars] using isBlank_eq_false_of_isWord hc
  · exact isBlank_getLast? h

/-- A line counts when the statement on it has content. -/
theorem isContent_line (s : Statement) (before after : Space) :
    Source.isContent (before.chars ++ (s.chars ++ after.chars)) = s.hasContent := by
  cases h : s.hasContent with
  | true =>
    obtain ⟨c, cs, hchars, hc⟩ := exists_chars_eq_cons h
    have hpercent : '%' ≠ c := by
      rintro rfl
      exact absurd hc (by decide)
    rw [Source.isContent, Source.isComment, trim_line h, hchars]
    simp [startsWith, after?, hpercent]
  | false =>
    rw [Source.isContent, Source.isComment, trim_append_left before.allBlank]
    rcases eq_of_not_hasContent h with rfl | ⟨text, rfl⟩
    · have hnil : trim (chars blank ++ after.chars) = [] := trim_eq_nil_iff.mpr after.allBlank
      simp [hnil]
    · have hkept : ∀ cs, dropTrailing isBlank ('%' :: cs) = '%' :: dropTrailing isBlank cs := by
        intro cs
        have hpercent : isBlank '%' = false := by decide
        rw [dropTrailing]
        cases dropTrailing isBlank cs <;> simp [hpercent]
      have hstart : trim (chars (comment text) ++ after.chars) =
          '%' :: '%' :: dropTrailing isBlank (text ++ after.chars) := by
        have hpercent : isBlank '%' = false := by decide
        rw [chars, trim, List.cons_append, trimLeft_cons hpercent, trimRight, hkept,
          List.cons_append, hkept]
      simp [hstart, startsWith, after?]

/-- **Main statement.** A line is read as the statement that is written on it. -/
theorem ofText_chars (h : s.hasContent = true) : Line.ofText s.chars = s.line := by
  cases s with
  | blank => exact absurd h (by decide)
  | comment text => exact absurd h (by simp [hasContent])
  | closer => rfl
  | connection c =>
    have htarget : Target.ofText? (c.targetChars ++ []) = some c.target.target := by
      rw [List.append_nil]
      exact ofText?_mention c.target c.semicolons
    have hgroup := afterGroupKeyword?_connection c []
    have hparts : connection? (c.source.chars ++ (c.linkChars ++ [])) = _ :=
      connection?_connection c List.not_mem_nil
    rw [List.append_nil] at hgroup hparts
    simp only [chars, Line.ofText, hgroup, if_neg (ne_end_of_connection? hparts), hparts, htarget]
    rfl
  | declaration name hne w =>
    have hstops : StopsName w.fragment := by
      simpa [Mention.fragment] using stopsName_fragment ⟨name, some w⟩ stopsName_nil
    have hgroup : afterGroupKeyword? (name.chars ++ w.fragment) = none :=
      afterGroupKeyword?_eq_none hne hstops
    have hend : name.chars ++ w.fragment ≠ ['e', 'n', 'd'] := by
      apply ne_end name hstops
      obtain ⟨o, inside, d, hw, -⟩ := exists_fragment_eq w
      simp [hw]
    rw [chars, Line.ofText, hgroup]
    simp only [if_neg hend, connection?_declaration, declaration?_declaration]
    rfl
  | opener o =>
    have hgroup : afterGroupKeyword?
        (groupKeyword.chars ++ (o.gap.chars ++ (o.name.chars ++ o.labelChars))) =
          some (o.gap.chars ++ (o.name.chars ++ o.labelChars)) := by
      have hafter : after? "subgraph".toList
          (groupKeyword.chars ++ (o.gap.chars ++ (o.name.chars ++ o.labelChars))) =
            some (o.gap.chars ++ (o.name.chars ++ o.labelChars)) := after?_eq_some_iff.mpr rfl
      obtain ⟨b, more, hmore⟩ := List.exists_cons_of_ne_nil o.gap_ne_nil
      have hword : isWord b = false :=
        isWord_eq_false_of_isBlank (o.gap.allBlank b (hmore ▸ List.mem_cons_self))
      simp only [afterGroupKeyword?, hafter, Option.bind_eq_bind, Option.bind_some]
      simp [hmore, hword]
    rw [chars, Line.ofText, hgroup]
    simp only [groupHeader?_opener]
    rfl

end Statement

end Flowchart

end Diagrams
