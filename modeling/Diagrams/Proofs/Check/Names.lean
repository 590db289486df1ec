import Diagrams.Proofs.Check.Review
import Diagrams.Proofs.Flowchart.Written

/-!
# Names of nodes in reviews

A review looks for the name at the start of a line by itself: the shortest text before a shape or an
arrow. Reading takes the longest run of word characters, and then wants a shape or an arrow.

**Main statement** (`isAccepted_of_subject`): on every line that is read as a connection or as the
declaration of a node, the review finds the name that is read, and objects to no name.

* `isMarked_of_subject?` — on such a line a mark comes behind the name that is read: a bracket
  opens, or an arrow starts. When the shape is cut off and no arrow follows, reading tries the next
  cut, but the bracket is there all the same.
* `leadingName?_append` — no mark is found earlier, since no word character starts one.
* `exists_lineIssues_of_mem` — an objection to a name comes from the line at which it stands.
-/

namespace Diagrams.Flowchart

/-- The node that a line connects to another, or declares. -/
def Line.subject? : Line → Option String
  | connection source _ _ _ => some source.id
  | declaration id _ => some id
  | _ => none

end Diagrams.Flowchart

namespace Diagrams.Check

open Text Source Flowchart

variable {c : Char} {cs rest line : List Char}

/-! ### Marks -/

/-- A bracket that opens is a mark. -/
theorem markFollows_of_isOpening (h : cs.head?.any isOpening = true) :
    markFollows (trimLeft cs) = true := by
  cases cs with
  | nil => cases h
  | cons c cs =>
    have hopening : isOpening c = true := h
    rw [trimLeft_cons (isBlank_eq_false_of_isOpening hopening)]
    simp [markFollows, hopening]

/-- Every arrow starts with a mark. -/
theorem markFollows_of_ofStart? {found : Arrow × List Char} (h : Arrow.ofStart? cs = some found) :
    markFollows cs = true := by
  obtain ⟨a, -, ha⟩ := List.exists_of_findSome?_eq_some h
  obtain ⟨rest, hrest, -⟩ := Option.map_eq_some_iff.mp ha
  obtain rfl := after?_eq_some_iff.mp hrest
  cases a <;> simp [markFollows, Arrow.token, startsWith, after?]

/-- No mark starts with a word character. -/
theorem markFollows_eq_false_of_isWord (h : isWord c = true) (cs : List Char) :
    markFollows (c :: cs) = false := by
  have hdash : '-' ≠ c := by
    rintro rfl
    exact absurd h (by decide)
  have hequals : '=' ≠ c := by
    rintro rfl
    exact absurd h (by decide)
  simp [markFollows, startsWith, after?, isOpening_eq_false_of_isWord h, hdash, hequals]

/-! ### Names that are found -/

/-- Behind a name the mark is found, and none before. -/
theorem leadingName?_append (n : Name) (h : markFollows (trimLeft rest) = true) :
    leadingName? (n.chars ++ rest) = some n.chars := by
  obtain ⟨run, hne, hword⟩ := n
  show leadingName? (run ++ rest) = some run
  induction run with
  | nil => exact absurd rfl hne
  | cons c run ih =>
    have hc : (isBlank c || isOpening c) = false := by
      have hword := hword c List.mem_cons_self
      rw [isBlank_eq_false_of_isWord hword, isOpening_eq_false_of_isWord hword, Bool.or_false]
    rw [List.cons_append, leadingName?, if_neg (Bool.eq_false_iff.mp hc)]
    cases run with
    | nil => exact if_pos h
    | cons d run =>
      have hd : isWord d = true := hword d (List.mem_cons_of_mem _ List.mem_cons_self)
      have hgoesOn : markFollows (trimLeft (d :: run ++ rest)) = false := by
        rw [List.cons_append, trimLeft_cons (isBlank_eq_false_of_isWord hd)]
        exact markFollows_eq_false_of_isWord hd _
      rw [if_neg (Bool.eq_false_iff.mp hgoesOn),
        ih (List.cons_ne_nil _ _) fun e he => hword e (List.mem_cons_of_mem _ he)]
      rfl

/-- The line starts with the name, and a mark comes behind it. -/
def IsMarked (line name : List Char) : Prop :=
  ∃ rest, name? line = some (name, rest) ∧ markFollows (trimLeft rest) = true

/-- The source of a connection is marked, by its shape or else by the arrow. -/
theorem isMarked_of_connection? {id label text : List Char} {fragment : Option (List Char)}
    {arrow : Arrow} (h : connection? line = some (id, fragment, arrow, label, text)) :
    IsMarked line id := by
  simp only [connection?, Option.bind_eq_bind, Option.bind_eq_some_iff, Option.pure_def,
    Option.some.injEq, Prod.mk.injEq] at h
  obtain ⟨⟨name, rest⟩, hname, ⟨shape, found⟩, hfind, rfl, -⟩ := h
  refine ⟨rest, hname, ?_⟩
  by_cases hopening : rest.head?.any isOpening = true
  · exact markFollows_of_isOpening hopening
  · have hsplits : shapeSplits rest = [(none, rest)] := by
      apply shapeSplits_of_not_isOpening
      intro c hc
      rw [Bool.eq_false_iff]
      intro hc'
      rw [Option.mem_def.mp hc] at hopening
      exact hopening hc'
    obtain ⟨s, hs, hlink⟩ := List.exists_of_findSome?_eq_some hfind
    dsimp only at hs
    rw [hsplits, List.mem_singleton] at hs
    subst hs
    obtain ⟨l, hl, -⟩ := Option.map_eq_some_iff.mp hlink
    simp only [link?, Option.bind_eq_bind, Option.bind_eq_some_iff] at hl
    obtain ⟨_, harrow, -⟩ := hl
    exact markFollows_of_ofStart? harrow

/-- A newline at the end is not where a text starts, unless it is all of it. -/
theorem head?_of_head?_chomp {c : Char} (h : (chomp cs).head? = some c) : cs.head? = some c := by
  unfold chomp at h
  cases hbefore : before? ['\n'] cs with
  | none => rwa [hbefore] at h
  | some body =>
    rw [hbefore, Option.getD_some] at h
    rw [before?_eq_some_iff.mp hbefore, List.head?_append, h, Option.some_or]

/-- A node that is declared is marked by its shape. -/
theorem isMarked_of_declaration? {id fragment : List Char}
    (h : declaration? line = some (id, fragment)) : IsMarked line id := by
  simp only [declaration?, Option.bind_eq_bind, Option.bind_eq_some_iff] at h
  obtain ⟨⟨name, rest⟩, hname, h⟩ := h
  dsimp only at h
  split at h
  · rename_i hwhole
    obtain ⟨rfl, -⟩ := Prod.mk.inj (Option.some.inj h)
    refine ⟨rest, hname, markFollows_of_isOpening ?_⟩
    simp only [isWhole, Bool.and_eq_true] at hwhole
    obtain ⟨c, hc, hopening⟩ := (Option.any_eq_true _ _).mp hwhole.1.1.1
    rw [head?_of_head?_chomp hc]
    exact hopening
  · cases h

/-- On a line that is read as a connection or as a declaration the name that is read is marked. -/
theorem isMarked_of_subject? {id : String} (h : (Line.ofText line).subject? = some id) :
    IsMarked line id.toList := by
  unfold Line.ofText at h
  split at h
  · split at h <;> cases h
  split at h
  · cases h
  split at h
  · rename_i hconnection
    split at h
    · obtain rfl := Option.some.inj h
      rw [String.toList_ofList]
      exact isMarked_of_connection? hconnection
    · cases h
  · split at h
    · rename_i hdeclaration
      obtain rfl := Option.some.inj h
      rw [String.toList_ofList]
      exact isMarked_of_declaration? hdeclaration
    · cases h

/-! ### Objections to names -/

/-- The words of an objection to a name. -/
def invalidNameText (name : String) : String := "Invalid node ID: " ++ name

/-- The text about a wrong name starts with its own letter. -/
theorem head?_invalidNameText (name : String) :
    (invalidNameText name).toList.head? = some 'I' := by
  have hchars : (invalidNameText name).toList = "Invalid node ID: ".toList ++ name.toList :=
    String.toList_append
  have hfirst : "Invalid node ID: ".toList.head? = some 'I' := by decide
  rw [hchars, List.head?_append, hfirst, Option.some_or]

/-- No other issue is told in these words. -/
theorem exists_invalidName_of_issue_at {n : Nat} {i : Issue} {name : String}
    (h : (i.at n).issue = invalidNameText name) : ∃ name', i = .invalidName name' := by
  have hstart : (i.at n).issue.toList.head? = some 'I' := h ▸ head?_invalidNameText name
  cases i with
  | invalidName name' => exact ⟨name', rfl⟩
  | noKind | chainedArrows =>
    dsimp only [Issue.at] at hstart
    exact absurd hstart (by decide)

/-- A name is objected to where a name is found that is not a word. -/
theorem invalidName_notMem_lineIssues {name : List Char} (hfound : leadingName? line = some name)
    (hword : ∀ c ∈ name, isWord c = true) (checkNames : Bool) (other : String) :
    Issue.invalidName other ∉ lineIssues checkNames line := by
  have hall : name.all isWord = true := List.all_eq_true.mpr hword
  rw [lineIssues, hfound]
  cases checkNames <;> simp [hall]

/-- An objection to a name at a line comes from what is wrong with the line. -/
theorem exists_lineIssues_of_mem {lines : List (List Char)} {f : Finding} (hf : f ∈ issuesOf lines)
    {name : String} (htext : f.issue = invalidNameText name) :
    ∃ i raw, lines[i]? = some raw ∧ f.line = (i + 1 : Nat) ∧
      ∃ checkNames name', Issue.invalidName name' ∈ lineIssues checkNames (trim raw) := by
  rcases List.mem_append.mp hf with hhead | hline
  · obtain ⟨issue, hissue, rfl⟩ := List.mem_map.mp hhead
    obtain ⟨name', rfl⟩ := exists_invalidName_of_issue_at htext
    rw [headerIssues] at hissue
    split at hissue
    · cases List.mem_singleton.mp hissue
    · exact absurd hissue List.not_mem_nil
  · obtain ⟨l, hl, hfound⟩ := List.mem_flatMap.mp hline
    obtain ⟨issue, hissue, rfl⟩ := List.mem_map.mp hfound
    obtain ⟨name', rfl⟩ := exists_invalidName_of_issue_at htext
    obtain ⟨⟨raw, i⟩, hraw, rfl⟩ := List.mem_map.mp hl
    have hmem := List.mem_zipIdx_iff_getElem?.mp (List.mem_of_mem_filter hraw)
    exact ⟨i, raw, hmem, line_of_mem_issues hfound, _, name', hissue⟩

/-! ### Lines that are read -/

/-- The name is what a review finds at the start of the line, and the review lets it pass. -/
structure IsAccepted (line : List Char) (id : String) : Prop where
  /-- The review finds the name. -/
  found : leadingName? line = some id.toList
  /-- There is at least one character. -/
  ne_nil : id.toList ≠ []
  /-- Each is a word character. -/
  word : ∀ c ∈ id.toList, isWord c = true
  /-- No review objects to a name at the line, wherever the line stands. -/
  silent : ∀ (source : Json) (i : Nat) (raw : List Char), (linesOf source)[i]? = some raw →
    trim raw = line → ∀ f ∈ (review source).issues, f.line = (i + 1 : Nat) →
      ∀ name, f.issue ≠ invalidNameText name

/-- **Main statement.** A line that is read as a connection or as the declaration of a node has a
name that reviews accept. -/
theorem isAccepted_of_subject (line : List Char) (id : String)
    (h : (Line.ofText line).subject? = some id) : IsAccepted line id := by
  obtain ⟨rest, hname, hmark⟩ := isMarked_of_subject? h
  obtain ⟨n, hn, rfl⟩ := exists_name_of_name? hname
  have hfound : leadingName? (n.chars ++ rest) = some id.toList := by
    rw [leadingName?_append n hmark, hn]
  refine { found := hfound, ne_nil := hn ▸ n.ne_nil, word := hn ▸ n.isWord, silent := ?_ }
  intro source i raw hraw htrim f hf hline name htext
  rw [issues_review] at hf
  obtain ⟨j, raw', hraw', hj, checkNames, name', hissue⟩ := exists_lineIssues_of_mem hf htext
  -- the finding stands at this line, so it is this line that it comes from
  obtain rfl : j = i := by
    rw [hline] at hj
    omega
  obtain rfl : raw = raw' := Option.some.inj (hraw.symm.trans hraw')
  rw [htrim] at hissue
  exact invalidName_notMem_lineIssues hfound (hn ▸ n.isWord) checkNames name' hissue

/-- The first closing bracket ends no shape here, since no arrow follows; the name is the same. -/
theorem isAccepted_second_cut :
    (Line.ofText "A[a] b] --> C".toList).subject? = some "A" ∧
      IsAccepted "A[a] b] --> C".toList "A" :=
  ⟨by decide, isAccepted_of_subject _ _ (by decide)⟩

end Diagrams.Check
