import Diagrams.Proofs.Text.Trim
import Diagrams.Text.Scan

/-!
# Pieces of a line

The pieces of which lines are written, and what the scanning steps make of them when other text
follows.

* `Name` — a run of word characters. It is split off whole when no word character follows
  (`name?_append`), and a text starts with it in that way only (`Name.eq_of_append_eq`).
* `Space`, `Gap` — white space, perhaps none, and white space of which there is some.
* `words_space_append`, `words_name_append` — the words of a text one by one.
* `takeWhile_bne_append`, `dropWhile_bne_append` — a text is cut at its first mark.
* `Phrase` — a text on a line that neither starts nor ends with white space.
* `isWord_eq_false_of_isBlank` — white space ends a name.
-/

namespace Diagrams.Text

/-! ### Word characters and white space -/

/-- The white space beyond ASCII, as closed ranges of code points. -/
def blankRanges : List (Nat × Nat) :=
  [(0x85, 0x85), (0xA0, 0xA0), (0x1680, 0x1680), (0x2000, 0x200A), (0x2028, 0x2029),
   (0x202F, 0x202F), (0x205F, 0x205F), (0x3000, 0x3000)]

/-- No range of letters and numbers meets a range of white space. -/
theorem wordRanges_disjoint_blankRanges :
    (wordRanges.toList.all fun r => blankRanges.all fun b => Nat.blt r.2 b.1 || Nat.blt b.2 r.1) =
      true := by
  decide +kernel

variable {c : Char} {cs rest : List Char}

/-- White space is ASCII and comes before the digits, or lies in a range of `blankRanges`. -/
theorem isBlank_cases (h : isBlank c = true) :
    c.toNat < 48 ∨ 0x80 ≤ c.toNat ∧ ∃ b ∈ blankRanges, b.1 ≤ c.toNat ∧ c.toNat ≤ b.2 := by
  simp only [isBlank, Bool.or_eq_true, Bool.and_eq_true, decide_eq_true_eq, beq_iff_eq] at h
  simp only [blankRanges, List.mem_cons, List.not_mem_nil, or_false, exists_eq_or_imp,
    exists_eq_left]
  omega

/-- A word character is ASCII and does not come before the digits, or lies in a range of
`wordRanges`. -/
theorem isWord_cases (h : isWord c = true) :
    48 ≤ c.toNat ∧ c.toNat < 0x80 ∨
      0x80 ≤ c.toNat ∧ ∃ r ∈ wordRanges.toList, r.1 ≤ c.toNat ∧ c.toNat ≤ r.2 := by
  rw [isWord, Bool.or_eq_true, Bool.and_eq_true, decide_eq_true_eq, ← Array.any_toList,
    List.any_eq_true] at h
  rcases h with hascii | ⟨hhigh, r, hr, hc⟩
  · left
    delta Char.isAlphanum Char.isAlpha Char.isUpper Char.isLower Char.isDigit at hascii
    simp only [Bool.or_eq_true, Bool.and_eq_true, decide_eq_true_eq, beq_iff_eq, ge_iff_le,
      UInt32.le_iff_toNat_le] at hascii
    change (((65 ≤ c.toNat ∧ c.toNat ≤ 90) ∨ (97 ≤ c.toNat ∧ c.toNat ≤ 122)) ∨
      (48 ≤ c.toNat ∧ c.toNat ≤ 57)) ∨ c = '_' at hascii
    rcases hascii with hrange | rfl
    · omega
    · decide
  · right
    refine ⟨hhigh, r, hr, ?_⟩
    simpa using hc

/-- White space holds no word character. -/
theorem isWord_eq_false_of_isBlank (h : isBlank c = true) : isWord c = false := by
  rw [Bool.eq_false_iff]
  intro hword
  rcases isBlank_cases h with hlow | ⟨hhigh, b, hb, hblo, hbhi⟩
  · rcases isWord_cases hword with hascii | hbeyond
    · omega
    · omega
  · rcases isWord_cases hword with hascii | ⟨-, r, hr, hrlo, hrhi⟩
    · omega
    · have hapart := List.all_eq_true.mp
        (List.all_eq_true.mp wordRanges_disjoint_blankRanges r hr) b hb
      simp only [Bool.or_eq_true, Nat.blt_eq] at hapart
      omega

/-- A word character is no white space. -/
theorem isBlank_eq_false_of_isWord (h : isWord c = true) : isBlank c = false := by
  rw [Bool.eq_false_iff]
  intro hblank
  rw [isWord_eq_false_of_isBlank hblank] at h
  exact Bool.false_ne_true h

/-- A letter is a word character in either case. -/
theorem isWord_of_toLower (h : isWord c.toLower = true) : isWord c = true := by
  by_cases hupper : c.isUpper = true
  · have halphanum : (c.isUpper || c.isLower || c.isDigit) = true := by simp [hupper]
    exact isWord_of_isAlphanum halphanum
  · have hself : c.toLower = c := dif_neg fun hrange => hupper (decide_eq_true hrange)
    rwa [hself] at h

/-! ### Names -/

/-- A name as it is written. -/
structure Name where
  /-- The characters. -/
  chars : List Char
  /-- There is at least one. -/
  ne_nil : chars ≠ []
  /-- Each is a word character. -/
  isWord : ∀ c ∈ chars, isWord c = true

/-- The name as a text. -/
def Name.text (n : Name) : String := String.ofList n.chars

/-- No word character comes first. -/
def StopsName (cs : List Char) : Prop := ∀ c ∈ cs.head?, isWord c = false

/-- A name stops where the text does. -/
theorem stopsName_nil : StopsName [] := by
  simp [StopsName]

/-- A name stops before a character that is no word character. -/
theorem stopsName_cons (h : isWord c = false) : StopsName (c :: cs) := by
  simpa [StopsName] using h

/-- What follows a run of word characters is found behind it. -/
theorem dropWhile_isWord_append (hcs : ∀ c ∈ cs, isWord c = true) (h : StopsName rest) :
    (cs ++ rest).dropWhile isWord = rest := by
  rw [List.dropWhile_append_of_pos hcs]
  cases rest with
  | nil => rfl
  | cons c rest => simp [h c rfl]

/-- A name is split off whole. -/
theorem name?_append (n : Name) (h : StopsName rest) :
    name? (n.chars ++ rest) = some (n.chars, rest) := by
  have htake : rest.takeWhile Text.isWord = [] := by
    cases rest with
    | nil => rfl
    | cons c rest => simp [h c rfl]
  rw [name?, List.takeWhile_append_of_pos n.isWord, dropWhile_isWord_append n.isWord h, htake,
    List.append_nil]
  obtain ⟨c, run, hrun⟩ := List.exists_cons_of_ne_nil n.ne_nil
  rw [hrun]

/-- What is split off is a name. -/
theorem exists_name_of_name? {run : List Char} (h : name? cs = some (run, rest)) :
    ∃ n : Name, n.chars = run ∧ cs = n.chars ++ rest := by
  have hword : ∀ c ∈ run, isWord c = true := by
    intro c hc
    unfold name? at h
    split at h
    · cases h
    · rename_i d more hrun
      obtain ⟨rfl, -⟩ := Prod.mk.inj (Option.some.inj h)
      rw [← hrun] at hc
      exact List.all_eq_true.mp List.all_takeWhile c hc
  exact ⟨⟨run, ne_nil_of_name? h, hword⟩, rfl, eq_append_of_name? h⟩

/-- A text starts with a name unless something else comes first. -/
theorem name?_eq_none_iff : name? cs = none ↔ StopsName cs := by
  cases cs with
  | nil => simp [name?, StopsName]
  | cons c cs => cases hc : isWord c <;> simp [name?, StopsName, hc]

/-- There is one way only in which a text starts with a name. -/
theorem Name.eq_of_append_eq {n m : Name} {rest' : List Char} (hn : StopsName rest)
    (hm : StopsName rest') (h : n.chars ++ rest = m.chars ++ rest') : n.chars = m.chars := by
  have hname := name?_append n hn
  rw [h, name?_append m hm] at hname
  simp only [Option.some.injEq, Prod.mk.injEq] at hname
  exact hname.1.symm

/-- A name starts with a word character. -/
theorem Name.head?_isWord (n : Name) (rest : List Char) :
    ∃ c cs, n.chars ++ rest = c :: cs ∧ Text.isWord c = true := by
  obtain ⟨c, run, hrun⟩ := List.exists_cons_of_ne_nil n.ne_nil
  refine ⟨c, run ++ rest, by rw [hrun, List.cons_append], n.isWord c ?_⟩
  rw [hrun]
  exact List.mem_cons_self

/-- A line that starts with a name does not start with white space. -/
theorem isBlank_head?_name (n : Name) (rest : List Char) :
    ∀ c ∈ (n.chars ++ rest).head?, isBlank c = false := by
  obtain ⟨c, cs, hhead, hc⟩ := n.head?_isWord rest
  simpa [hhead] using isBlank_eq_false_of_isWord hc

/-- A line ends like its last piece. -/
theorem isBlank_getLast?_append (hne : cs ≠ []) (h : ∀ c ∈ cs.getLast?, isBlank c = false)
    (front : List Char) : ∀ c ∈ (front ++ cs).getLast?, isBlank c = false := by
  rwa [List.getLast?_append_of_ne_nil _ hne]

/-- A line that ends with another character than white space does not end with white space. -/
theorem isBlank_getLast?_concat {c : Char} (h : isBlank c = false) (front : List Char) :
    ∀ c' ∈ (front ++ [c]).getLast?, isBlank c' = false :=
  isBlank_getLast?_append (List.cons_ne_nil c []) (fun _ hc => Option.some.inj hc ▸ h) front

/-- A line that ends with a name does not end with white space. -/
theorem isBlank_getLast?_name (n : Name) (front : List Char) :
    ∀ c ∈ (front ++ n.chars).getLast?, isBlank c = false :=
  isBlank_getLast?_append n.ne_nil
    (fun c hc => isBlank_eq_false_of_isWord (n.isWord c (List.mem_of_getLast? hc))) front

/-- No white space stands before a name. -/
theorem trimLeft_name (n : Name) (rest : List Char) : trimLeft (n.chars ++ rest) = n.chars ++ rest :=
  trimLeft_eq_self (isBlank_head?_name n rest)

/-! ### White space -/

/-- White space as it is written. -/
structure Space where
  /-- The characters. -/
  chars : List Char
  /-- Each is white space. -/
  allBlank : AllBlank chars

/-- White space before a text is dropped. -/
theorem Space.trimLeft_append (s : Space) (cs : List Char) :
    trimLeft (s.chars ++ cs) = trimLeft cs :=
  Text.trimLeft_append s.allBlank cs

/-- White space before it does not help a name to go on. -/
theorem Space.stopsName (s : Space) (h : StopsName cs) : StopsName (s.chars ++ cs) := by
  cases hs : s.chars with
  | nil => exact h
  | cons b more =>
    exact stopsName_cons (isWord_eq_false_of_isBlank (s.allBlank b (hs ▸ List.mem_cons_self)))

/-- White space of which there is some. -/
structure Gap extends Space where
  /-- It is not empty. -/
  ne_nil : chars ≠ []

/-- A gap starts with white space, and there may be more. -/
theorem Gap.exists_eq_cons (g : Gap) :
    ∃ b more, g.chars = b :: more ∧ isBlank b = true ∧ AllBlank more := by
  obtain ⟨b, more, hmore⟩ := List.exists_cons_of_ne_nil g.ne_nil
  refine ⟨b, more, hmore, g.allBlank b (hmore ▸ List.mem_cons_self), ?_⟩
  intro c hc
  exact g.allBlank c (hmore ▸ List.mem_cons_of_mem b hc)

/-- A gap ends the name before it. -/
theorem Gap.stopsName (g : Gap) (cs : List Char) : StopsName (g.chars ++ cs) := by
  obtain ⟨b, more, hmore, hb, -⟩ := g.exists_eq_cons
  rw [hmore]
  exact stopsName_cons (isWord_eq_false_of_isBlank hb)

/-- A gap is passed over whole. -/
theorem gap?_append (g : Gap) (cs : List Char) : gap? (g.chars ++ cs) = some (trimLeft cs) := by
  obtain ⟨b, more, hmore, hb, hblank⟩ := g.exists_eq_cons
  rw [hmore, List.cons_append, gap?, if_pos hb, Text.trimLeft_append hblank]

/-! ### Words -/

/-- A line that starts with a gap starts with white space. -/
theorem isBlank_head?_gap_append (g : Gap) (cs : List Char) :
    ∀ c ∈ (g.chars ++ cs).head?, isBlank c = true := by
  obtain ⟨b, more, hmore, hb, -⟩ := g.exists_eq_cons
  simpa [hmore] using hb

/-- White space before the words does not matter. -/
theorem words_blank_cons {b : Char} (hb : isBlank b = true) (cs : List Char) :
    words (b :: cs) = words cs := by
  cases cs with
  | nil => simp [words, hb]
  | cons c cs => simp [words, hb]

/-- White space in front of the words. -/
theorem words_space_append (s : Space) (cs : List Char) : words (s.chars ++ cs) = words cs := by
  obtain ⟨ws, hws⟩ := s
  induction ws with
  | nil => rfl
  | cons b ws ih =>
    rw [List.cons_append, words_blank_cons (hws b List.mem_cons_self)]
    exact ih fun c hc => hws c (List.mem_cons_of_mem b hc)

/-- A run of other characters is a word when white space follows it or nothing. -/
theorem words_run_append (hne : cs ≠ []) (hcs : ∀ c ∈ cs, isBlank c = false)
    (hrest : ∀ c ∈ rest.head?, isBlank c = true) : words (cs ++ rest) = cs :: words rest := by
  induction cs with
  | nil => exact absurd rfl hne
  | cons c cs ih =>
    have hc : isBlank c = false := hcs c List.mem_cons_self
    cases cs with
    | nil =>
      cases rest with
      | nil => simp [words, hc]
      | cons b rest => simp [words, hc, hrest b rfl]
    | cons d cs =>
      have hd : isBlank d = false := hcs d (by simp)
      have hmore := ih (List.cons_ne_nil d cs) fun e he => hcs e (List.mem_cons_of_mem c he)
      rw [List.cons_append] at hmore
      simp [words, hc, hd, hmore]

/-- A name is a word when white space follows it or nothing. -/
theorem words_name_append (n : Name) (h : ∀ c ∈ rest.head?, isBlank c = true) :
    words (n.chars ++ rest) = n.chars :: words rest :=
  words_run_append n.ne_nil (fun c hc => isBlank_eq_false_of_isWord (n.isWord c hc)) h

/-! ### Text up to a mark -/

variable {mark : Char}

/-- Where a mark does not stand every character differs from it. -/
theorem bne_of_notMem (h : mark ∉ cs) : ∀ c ∈ cs, (c != mark) = true := by
  intro c hc
  rw [bne_iff_ne]
  rintro rfl
  exact h hc

/-- The text before the first mark. -/
theorem takeWhile_bne_append (h : mark ∉ cs) (rest : List Char) :
    (cs ++ mark :: rest).takeWhile (· != mark) = cs := by
  simp [List.takeWhile_append_of_pos (bne_of_notMem h)]

/-- The first mark and what follows it. -/
theorem dropWhile_bne_append (h : mark ∉ cs) (rest : List Char) :
    (cs ++ mark :: rest).dropWhile (· != mark) = mark :: rest := by
  simp [List.dropWhile_append_of_pos (bne_of_notMem h)]

/-! ### Phrases -/

/-- Trimmed text does not start with white space. -/
theorem isBlank_head?_trim (h : c ∈ (trim cs).head?) : isBlank c = false := by
  obtain ⟨ws, -, hcs⟩ := eq_trimRight_append (trimLeft cs)
  have hleft : c ∈ (trimLeft cs).head? := by
    rw [Option.mem_def] at h ⊢
    rw [hcs, List.head?_append, ← trim, h]
    rfl
  have hdrop := List.head?_dropWhile_not isBlank cs
  rw [← trimLeft, Option.mem_def.mp hleft] at hdrop
  exact hdrop

/-- Trimmed text does not end with white space. -/
theorem isBlank_getLast?_trim (h : c ∈ (trim cs).getLast?) : isBlank c = false := by
  rw [trim, trimRight, dropTrailing_eq_rdropWhile, Option.mem_def] at h
  have hne : (trimLeft cs).rdropWhile isBlank ≠ [] := by
    rintro hnil
    rw [hnil] at h
    cases h
  have hlast := List.rdropWhile_last_not isBlank (trimLeft cs) hne
  rw [List.getLast?_eq_some_getLast hne, Option.some.injEq] at h
  rwa [h, Bool.not_eq_true] at hlast

/-- Text as it is written on a line, without white space around it. -/
structure Phrase where
  /-- The characters. -/
  chars : List Char
  /-- There is at least one. -/
  ne_nil : chars ≠ []
  /-- There is no white space around them. -/
  trim_eq : trim chars = chars
  /-- They stand on one line. -/
  newline_notMem : '\n' ∉ chars

/-- The phrase as a text. -/
def Phrase.text (p : Phrase) : String := String.ofList p.chars

/-- A line that starts with a phrase does not start with white space. -/
theorem Phrase.isBlank_head? (p : Phrase) (rest : List Char) :
    ∀ c ∈ (p.chars ++ rest).head?, isBlank c = false := by
  intro c hc
  rw [List.head?_append_of_ne_nil _ p.ne_nil] at hc
  exact isBlank_head?_trim (p.trim_eq.symm ▸ hc)

/-- A line that ends with a phrase does not end with white space. -/
theorem Phrase.isBlank_getLast? (p : Phrase) (front : List Char) :
    ∀ c ∈ (front ++ p.chars).getLast?, isBlank c = false :=
  isBlank_getLast?_append p.ne_nil
    (fun _ hc => isBlank_getLast?_trim (p.trim_eq.symm ▸ hc)) front

/-- No white space stands before a phrase. -/
theorem Phrase.trimLeft_append (p : Phrase) (rest : List Char) :
    trimLeft (p.chars ++ rest) = p.chars ++ rest :=
  trimLeft_eq_self (p.isBlank_head? rest)

end Diagrams.Text
