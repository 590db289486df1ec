import Diagrams.Proofs.Json.Quoted
import Mathlib.Algebra.Ring.Nat

/-!
# Values are read as they were written

**Main statement** (`Json.IsPlain.read_indented`): the indented text of a value is read as the
value, when the value is *plain* (`Json.IsPlain`): it has no numbers with a fraction, none of its
whole numbers is too long to be read, and no two fields of an object share a name.

The token at the start of a written value is the value's own (`Json.token?_int`,
`Json.token?_quote`), because what follows it does not go on with a number (`Json.EndsNumber`). So
the machine that meets a written value is in the same state afterwards as if it had been given the
value (`Json.IsPlain.isTaken`), by induction on the value.
-/

namespace Diagrams.Json

/-! ### Plain values -/

/-- A value that is read as it is written. -/
inductive IsPlain : Json → Prop
  | null : IsPlain null
  | bool (b : Bool) : IsPlain (bool b)
  /-- A whole number that is not too long. -/
  | int {n : Int} (h : n.natAbs < 10 ^ maxDigits) : IsPlain (int n)
  | str (s : String) : IsPlain (str s)
  | arr {items : List Json} (h : ∀ item ∈ items, IsPlain item) : IsPlain (arr items)
  /-- The names of the fields differ. -/
  | obj {fields : Table Json} (hnames : fields.names.Nodup)
      (h : ∀ f ∈ fields, IsPlain f.2) : IsPlain (obj fields)

/-! ### Whole numbers -/

/-- The text does not go on with a number. -/
def EndsNumber (rest : List Char) : Prop :=
  ∀ c ∈ rest.head?, c.isDigit = false ∧ c ≠ '.' ∧ c ≠ 'e' ∧ c ≠ 'E'

/-- A number ends where the text does. -/
theorem endsNumber_nil : EndsNumber [] := nofun

/-- A number ends before a character that cannot go on with it. -/
theorem endsNumber_cons {c : Char} (h : c.isDigit = false ∧ c ≠ '.' ∧ c ≠ 'e' ∧ c ≠ 'E')
    (rest : List Char) : EndsNumber (c :: rest) := by
  intro d hd
  cases hd
  exact h

/-- The digits of a number other than zero do not start with a zero. -/
theorem head_toDigits {n : Nat} (hn : n ≠ 0) : ∃ c ds, Nat.toDigits 10 n = c :: ds ∧ c ≠ '0' := by
  induction n using Nat.strongRecOn with
  | ind n ih =>
    by_cases h : n < 10
    · refine ⟨n.digitChar, [], Nat.toDigits_of_lt_base h, ?_⟩
      rwa [Ne, Nat.digitChar_eq_zero]
    · obtain ⟨c, ds, hds, hc⟩ := ih (n / 10) (by omega) (by omega)
      refine ⟨c, ds ++ [(n % 10).digitChar], ?_, hc⟩
      rw [Nat.toDigits_of_base_le (by omega) (by omega), hds, List.cons_append]

/-- No digits are at the start of a text that does not go on with a number. -/
theorem EndsNumber.takeWhile {rest : List Char} (h : EndsNumber rest) :
    rest.takeWhile Char.isDigit = [] ∧ rest.dropWhile Char.isDigit = rest := by
  cases rest with
  | nil => exact ⟨rfl, rfl⟩
  | cons c rest =>
    have hc : ¬ c.isDigit = true := by
      rw [(h c rfl).1]
      exact Bool.false_ne_true
    exact ⟨List.takeWhile_cons_of_neg hc, List.dropWhile_cons_of_neg hc⟩

/-- The digits of a number are read as its whole part. -/
theorem wholePart?_toDigits (n : Nat) {rest : List Char} (hrest : EndsNumber rest) :
    wholePart? (Nat.toDigits 10 n ++ rest) = some (Nat.toDigits 10 n, rest) := by
  by_cases hn : n = 0
  · rw [hn, Nat.toDigits_zero]
    rfl
  · obtain ⟨c, ds, hds, hc⟩ := head_toDigits hn
    have hdigit : ∀ d ∈ c :: ds, d.isDigit = true := fun d hd =>
      Nat.isDigit_of_mem_toDigits (by omega) (by omega) (hds ▸ hd)
    have hrun : (c :: (ds ++ rest)).takeWhile Char.isDigit = c :: ds := by
      rw [← List.cons_append, List.takeWhile_append_of_pos hdigit, hrest.takeWhile.1,
        List.append_nil]
    have hleft : (ds ++ rest).dropWhile Char.isDigit = rest := by
      rw [List.dropWhile_append_of_pos fun d hd => hdigit d (List.mem_cons_of_mem c hd),
        hrest.takeWhile.2]
    rw [hds, List.cons_append, wholePart?, if_neg hc, if_pos (hdigit c List.mem_cons_self), hrun,
      hleft]

/-- What does not go on with a number has no places after a point. -/
theorem EndsNumber.fraction {rest : List Char} (h : EndsNumber rest) :
    fraction rest = ([], rest) := by
  unfold Json.fraction
  split
  · exact absurd rfl (h '.' rfl).2.1
  · rfl

/-- What does not go on with a number has no exponent. -/
theorem EndsNumber.exponent {rest : List Char} (h : EndsNumber rest) :
    exponent rest = (none, rest) := by
  cases rest with
  | nil => rfl
  | cons c rest =>
    obtain ⟨-, -, hsmall, hlarge⟩ := h c rfl
    rw [Json.exponent, if_neg fun hc => hc.elim hsmall hlarge]

/-- The digits of a number with its sign are read as the number. -/
theorem number?_toDigits (negative : Bool) {n : Nat} (hn : n < 10 ^ maxDigits) {rest : List Char}
    (hrest : EndsNumber rest) :
    number? negative (Nat.toDigits 10 n ++ rest) =
      some (.scalar (.int (if negative then -(n : Int) else n)), rest) := by
  have hlength : ¬ maxDigits < (Nat.toDigits 10 n).length :=
    Nat.not_lt.mpr ((Nat.length_toDigits_le_iff (by decide) (by decide)).mpr hn)
  have hvalue : digitsValue (Nat.toDigits 10 n) = n := Nat.ofDigitChars_ten_toDigits
  rw [number?, wholePart?_toDigits n hrest, Option.bind_eq_bind, Option.bind_some]
  simp only [hrest.fraction, hrest.exponent]
  rw [if_pos ⟨trivial, trivial⟩, if_neg hlength, hvalue]
  rfl

/-! ### Single tokens -/

/-- A digit is none of the characters that are not. -/
theorem ne_digit {c d : Char} (hc : c.isDigit = true) (hd : d.isDigit = false) : ¬ d = c := by
  rintro rfl
  exact Bool.false_ne_true (hd.symm.trans hc)

/-- No word starts with a digit, or with a minus sign and a digit. -/
theorem word?_digit {c : Char} (hc : c.isDigit = true) (cs : List Char) :
    word? (c :: cs) = none ∧ word? ('-' :: c :: cs) = none := by
  have hne {d : Char} (hd : d.isDigit = false) : ¬ d = c := ne_digit hc hd
  constructor
  · simp [word?, wordValues, hne]
  · simp [word?, wordValues, hne]

/-- A text that starts with a digit starts with a number. -/
theorem token?_digit {c : Char} (hc : c.isDigit = true) (cs : List Char) :
    token? (c :: cs) = number? false (c :: cs) := by
  rw [token?.eq_def]
  split
  iterate 7
    · rename_i heq
      cases heq
      exact absurd hc (by decide)
  · rw [(word?_digit hc cs).1]
    dsimp only
    split
    · rename_i heq
      cases heq
      exact absurd hc (by decide)
    · rfl

/-- A text that starts with a minus sign and a digit starts with a negative number. -/
theorem token?_minus {c : Char} (hc : c.isDigit = true) (cs : List Char) :
    token? ('-' :: c :: cs) = number? true (c :: cs) := by
  rw [token?.eq_def]
  split
  iterate 7
    · rename_i heq
      injection heq with hhead
      exact absurd hhead (by decide)
  · rw [(word?_digit hc cs).2]
    rfl

/-- A whole number is read as it was written. -/
theorem token?_int {n : Int} (hn : n.natAbs < 10 ^ maxDigits) {rest : List Char}
    (hrest : EndsNumber rest) :
    token? ((toString n).toList ++ rest) = some (.scalar (.int n), rest) := by
  have hdigits (m : Nat) : ∃ c ds, Nat.toDigits 10 m = c :: ds ∧ c.isDigit = true := by
    obtain ⟨c, ds, hds⟩ := List.exists_cons_of_ne_nil (Nat.toDigits_ne_nil (n := m) (b := 10))
    have hmem : c ∈ Nat.toDigits 10 m := hds ▸ List.mem_cons_self
    exact ⟨c, ds, hds, Nat.isDigit_of_mem_toDigits (by decide) (by decide) hmem⟩
  rw [Int.toString_eq_repr, Int.repr_eq_if]
  split
  · rename_i hpos
    obtain ⟨c, ds, hds, hc⟩ := hdigits n.toNat
    have hread := number?_toDigits false (n := n.toNat) (by omega) hrest
    rw [Nat.toList_repr]
    rw [hds, List.cons_append] at hread ⊢
    rw [token?_digit hc, hread]
    exact congrArg (fun m => some (Token.scalar (.int m), rest)) (Int.toNat_of_nonneg hpos)
  · rename_i hneg
    obtain ⟨c, ds, hds, hc⟩ := hdigits (-n).toNat
    have hread := number?_toDigits true (n := (-n).toNat) (by omega) hrest
    have hminus : -((-n).toNat : Int) = n := by omega
    rw [String.toList_append, Nat.toList_repr]
    rw [hds, List.cons_append] at hread
    rw [hds, show "-".toList = ['-'] from rfl, List.append_assoc, List.singleton_append,
      List.cons_append, token?_minus hc, hread]
    exact congrArg (fun m => some (Token.scalar (.int m), rest)) hminus

/-! ### Tokens of a text -/

/-- In an empty text there are no tokens. -/
theorem tokens_nil : tokens [] = [] := by rw [tokens]

/-- A blank is passed over. -/
theorem tokens_space {c : Char} (h : isSpace c = true) (rest : List Char) :
    tokens (c :: rest) = tokens rest := by
  rw [tokens, if_pos h]

/-- White space is passed over. -/
theorem tokens_gap {gap : List Char} (h : ∀ c ∈ gap, isSpace c = true) (rest : List Char) :
    tokens (gap ++ rest) = tokens rest := by
  induction gap with
  | nil => rfl
  | cons c gap ih =>
    rw [List.cons_append, tokens_space (h c List.mem_cons_self)]
    exact ih fun d hd => h d (List.mem_cons_of_mem c hd)

/-- No token starts with white space. -/
theorem token?_space {c : Char} (h : isSpace c = true) (cs : List Char) :
    token? (c :: cs) = none := by
  simp only [isSpace, Bool.or_eq_true, beq_iff_eq] at h
  rcases h with ((rfl | rfl) | rfl) | rfl <;> rfl

/-- The token at the start of a text is the first of its tokens. -/
theorem tokens_append {v rest : List Char} {t : Token} (hv : v ≠ [])
    (h : token? (v ++ rest) = some (t, rest)) : tokens (v ++ rest) = t :: tokens rest := by
  obtain ⟨c, cs, rfl⟩ := List.exists_cons_of_ne_nil hv
  rw [List.cons_append] at h
  have hspace : ¬ isSpace c = true := fun hc => by
    rw [token?_space hc] at h
    cases h
  have hlength : rest.length ≤ (cs ++ rest).length := by
    rw [List.length_append]
    exact Nat.le_add_left _ _
  rw [List.cons_append, tokens, if_neg hspace, h]
  exact if_pos hlength

/-- A mark is a token. -/
theorem tokens_mark {c : Char} {t : Token} (h : ∀ rest, token? (c :: rest) = some (t, rest))
    (rest : List Char) : tokens (c :: rest) = t :: tokens rest :=
  tokens_append (List.cons_ne_nil c []) (h rest)

/-- A string in quotes is a token. -/
theorem tokens_quote (s : String) (rest : List Char) :
    tokens (quote s ++ rest) = .text s :: tokens rest :=
  tokens_append (List.cons_ne_nil _ _) (token?_quote s rest)

/-! ### The machine -/

/-- A value may come next; the containers that are open when it is read are those on the second
stack. -/
inductive Awaits : Expect → List Frame → List Frame → Prop
  | value (stack : List Frame) : Awaits .value stack stack
  | item (stack : List Frame) : Awaits .itemOrEnd stack (.items [] :: stack)

/-- The machine takes the written form of a value, wherever it meets it, for the value. -/
def IsTaken (gap : Nat → List Char) (j : Json) : Prop :=
  ∀ {e : Expect} {stack open' : List Frame} (depth : Nat) {rest : List Char},
    Awaits e stack open' → EndsNumber rest →
      run e stack (tokens (write gap depth j ++ rest)) = run (.after j) open' (tokens rest)

/-- A value whose written form is a token is taken. -/
theorem isTaken_of_token? {gap : Nat → List Char} {j : Json} {t : Token} {v : List Char}
    (hv : ∀ depth, write gap depth j = v)
    (htoken : ∀ rest, EndsNumber rest → token? (v ++ rest) = some (t, rest))
    (ht : ∀ {e stack open'}, Awaits e stack open' →
      ∀ ts, run e stack (t :: ts) = run (.after j) open' ts) : IsTaken gap j := by
  intro e stack open' depth rest hawaits hrest
  have hne : v ≠ [] := by
    rintro rfl
    cases htoken [] endsNumber_nil
  rw [hv, tokens_append hne (htoken rest hrest), ht hawaits]

/-- A scalar is a value. -/
theorem Awaits.run_scalar {e : Expect} {stack open' : List Frame} (h : Awaits e stack open')
    (j : Json) (ts : List Token) : run e stack (.scalar j :: ts) = run (.after j) open' ts := by
  cases h <;> rfl

/-- A string is a value. -/
theorem Awaits.run_text {e : Expect} {stack open' : List Frame} (h : Awaits e stack open')
    (s : String) (ts : List Token) :
    run e stack (.text s :: ts) = run (.after (str s)) open' ts := by
  cases h <;> rfl

/-- A bracket opens a list. -/
theorem Awaits.run_openBracket {e : Expect} {stack open' : List Frame} (h : Awaits e stack open')
    (ts : List Token) : run e stack (.openBracket :: ts) = run .itemOrEnd open' ts := by
  cases h <;> rfl

/-- A brace opens an object. -/
theorem Awaits.run_openBrace {e : Expect} {stack open' : List Frame} (h : Awaits e stack open')
    (ts : List Token) : run e stack (.openBrace :: ts) = run .nameOrEnd open' ts := by
  cases h <;> rfl

section

variable {gap : Nat → List Char} (hgap : ∀ n, ∀ c ∈ gap n, isSpace c = true)

include hgap

/-- What goes on with white space or a mark does not go on with a number. -/
theorem endsNumber_gap (n : Nat) {c : Char} (hc : c.isDigit = false ∧ c ≠ '.' ∧ c ≠ 'e' ∧ c ≠ 'E')
    (rest : List Char) : EndsNumber (gap n ++ c :: rest) := by
  cases hn : gap n with
  | nil => exact endsNumber_cons hc rest
  | cons d ds =>
    have hd : isSpace d = true := hgap n d (hn ▸ List.mem_cons_self)
    refine endsNumber_cons ?_ _
    simp only [isSpace, Bool.or_eq_true, beq_iff_eq] at hd
    rcases hd with ((rfl | rfl) | rfl) | rfl <;> decide

/-- What follows an item does not go on with a number. -/
theorem endsNumber_writeItems (items : List Json) (depth n : Nat) (rest : List Char) :
    EndsNumber (writeItems gap depth items ++ (gap n ++ ']' :: rest)) := by
  cases items with
  | nil => exact endsNumber_gap hgap n (by decide) rest
  | cons _ _ => exact endsNumber_cons (by decide) _

/-- What follows a field does not go on with a number. -/
theorem endsNumber_writeFields (fields : Table Json) (depth n : Nat) (rest : List Char) :
    EndsNumber (writeFields gap depth fields ++ (gap n ++ '}' :: rest)) := by
  cases fields with
  | nil => exact endsNumber_gap hgap n (by decide) rest
  | cons _ _ => exact endsNumber_cons (by decide) _

/-- The items after the first are taken up to the end of the list. -/
theorem run_writeItems {items : List Json} (h : ∀ item ∈ items, IsTaken gap item) (depth n : Nat)
    (j : Json) (done : List Json) (stack : List Frame) (rest : List Char) :
    run (.after j) (.items done :: stack)
        (tokens (writeItems gap depth items ++ (gap n ++ ']' :: rest))) =
      run (.after (arr (done.reverse ++ j :: items))) stack (tokens rest) := by
  induction items generalizing j done with
  | nil =>
    rw [writeItems, List.nil_append, tokens_gap (hgap n), tokens_mark fun _ => rfl, run,
      List.reverse_cons]
  | cons item items ih =>
    have hrest := endsNumber_writeItems hgap items depth n rest
    simp only [writeItems, List.cons_append, List.append_assoc]
    rw [tokens_mark fun _ => rfl, run, tokens_gap (hgap depth),
      h item List.mem_cons_self depth (.value _) hrest,
      ih fun i hi => h i (List.mem_cons_of_mem item hi)]
    rw [List.reverse_cons, List.append_assoc, List.singleton_append]

/-- The fields after the first are taken up to the end of the object. -/
theorem run_writeFields {fields : Table Json} (h : ∀ f ∈ fields, IsTaken gap f.2) (depth n : Nat)
    (name : String) (j : Json) (done : Table Json)
    (hnames : (Table.names (done ++ (name, j) :: fields)).Nodup) (stack : List Frame)
    (rest : List Char) :
    run (.after j) (.fields done name :: stack)
        (tokens (writeFields gap depth fields ++ (gap n ++ '}' :: rest))) =
      run (.after (obj (done ++ (name, j) :: fields))) stack (tokens rest) := by
  induction fields generalizing name j done with
  | nil =>
    rw [writeFields, List.nil_append, tokens_gap (hgap n), tokens_mark fun _ => rfl, run,
      Table.insert_of_notMem (Table.notMem_of_nodup_append hnames)]
  | cons f fields ih =>
    have hrest := endsNumber_writeFields hgap fields depth n rest
    have hdone : done ++ (name, j) :: f :: fields = (done ++ [(name, j)]) ++ f :: fields := by
      rw [List.append_assoc, List.singleton_append]
    simp only [writeFields, List.cons_append, List.append_assoc, List.nil_append]
    rw [tokens_mark fun _ => rfl, run, tokens_gap (hgap depth), tokens_quote, run,
      Table.insert_of_notMem (Table.notMem_of_nodup_append hnames), tokens_mark fun _ => rfl, run,
      tokens_space rfl, h f List.mem_cons_self depth (.value _) hrest,
      ih (fun g hg => h g (List.mem_cons_of_mem f hg)) f.1 f.2 _ (hdone ▸ hnames), hdone]

/-- The written form of a plain value is taken for the value. -/
theorem IsPlain.isTaken {j : Json} (h : IsPlain j) : IsTaken gap j := by
  induction h with
  | null =>
    exact isTaken_of_token? (fun _ => rfl) (fun _ _ => rfl) fun hawaits => hawaits.run_scalar .null
  | bool b =>
    cases b with
    | true =>
      exact isTaken_of_token? (fun _ => rfl) (fun _ _ => rfl)
        fun hawaits => hawaits.run_scalar (.bool true)
    | false =>
      exact isTaken_of_token? (fun _ => rfl) (fun _ _ => rfl)
        fun hawaits => hawaits.run_scalar (.bool false)
  | @int n hn =>
    exact isTaken_of_token? (fun _ => rfl) (fun rest hrest => token?_int hn hrest)
      fun hawaits => hawaits.run_scalar (.int n)
  | str s =>
    exact isTaken_of_token? (fun _ => rfl) (fun rest _ => token?_quote s rest)
      fun hawaits => hawaits.run_text s
  | @arr items _ ih =>
    intro e stack open' depth rest hawaits hrest
    cases items with
    | nil =>
      simp only [write, List.cons_append, List.nil_append]
      rw [tokens_mark fun _ => rfl, hawaits.run_openBracket, tokens_mark fun _ => rfl, run]
    | cons item items =>
      have hitem := endsNumber_writeItems hgap items (depth + 1) depth rest
      simp only [write, List.cons_append, List.append_assoc, List.nil_append]
      rw [tokens_mark fun _ => rfl, hawaits.run_openBracket, tokens_gap (hgap (depth + 1)),
        ih item List.mem_cons_self (depth + 1) (.item _) hitem,
        run_writeItems hgap fun i hi => ih i (List.mem_cons_of_mem item hi)]
      rfl
  | @obj fields hnames _ ih =>
    intro e stack open' depth rest hawaits hrest
    cases fields with
    | nil =>
      simp only [write, List.cons_append, List.nil_append]
      rw [tokens_mark fun _ => rfl, hawaits.run_openBrace, tokens_mark fun _ => rfl, run]
    | cons f fields =>
      have hvalue := endsNumber_writeFields hgap fields (depth + 1) depth rest
      simp only [write, List.cons_append, List.append_assoc, List.nil_append]
      rw [tokens_mark fun _ => rfl, hawaits.run_openBrace, tokens_gap (hgap (depth + 1)),
        tokens_quote, run, tokens_mark fun _ => rfl, run, tokens_space rfl,
        ih f List.mem_cons_self (depth + 1) (.value _) hvalue,
        run_writeFields hgap (fun g hg => ih g (List.mem_cons_of_mem f hg)) _ _ _ _ _ hnames]
      rfl

end

/-- A plain value is read as it is written. -/
theorem IsPlain.read_write {gap : Nat → List Char} (hgap : ∀ n, ∀ c ∈ gap n, isSpace c = true)
    {j : Json} (h : IsPlain j) (depth : Nat) : read (write gap depth j) = .ok j := by
  have hrun := h.isTaken hgap depth (.value []) endsNumber_nil
  rw [List.append_nil, tokens_nil] at hrun
  exact hrun

/-! ### Indented text -/

/-- Indentation is white space. -/
theorem isSpace_of_mem_indentation (n : Nat) : ∀ c ∈ indentation n, isSpace c = true := by
  intro c hc
  rcases List.mem_cons.mp hc with rfl | hc
  · rfl
  · rw [(List.mem_replicate.mp hc).2]
    rfl

/-- The indented text of a plain value is read as the value. -/
theorem IsPlain.read_indented {j : Json} (h : IsPlain j) : read j.indented.toList = .ok j := by
  rw [indented, String.toList_ofList]
  exact h.read_write isSpace_of_mem_indentation 0

end Diagrams.Json
