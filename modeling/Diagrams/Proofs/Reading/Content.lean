import Diagrams.Parse
import Diagrams.Proofs.Text.Trim

/-!
# Only content counts

**Main statement** (`parse_eq_of_contents`): two texts whose lines that count are the same are read
alike, and a fence around a text changes nothing.

What counts in a text is told by `Source.contents`: the header and the lines after it that are
neither blank nor comments, without the white space around them. In a mindmap the white space
before a line counts as well, since it says how deep a topic is.

Every scan trims its lines and leaves out comments on its own, so a body counts only through its
contents (`Source.readBody_congr`). The text as a whole is trimmed before it is cut into lines; that
touches the header, which is trimmed anyway, and the end of the last line (`contents_lines_trim`).
A fence is taken off and leaves the text inside as it was (`stripFences_fenced`).
-/

namespace Diagrams

open Text

namespace Source

/-! ### What counts -/

/-- What counts of a line after the header. -/
def counted (header line : List Char) : List Char :=
  if Declared.ofLine? header = some .mindmap then trimRight line else trim line

/-- What counts in some lines: the header, and the lines after it that have content. -/
def contents (lines : List (List Char)) : Option (List Char × List (List Char)) :=
  match lines.filter isContent with
  | [] => none
  | header :: rest => some (trim header, rest.map (counted header))

/-- The text starts with a fence. -/
def IsFenced (cs : List Char) : Prop := startsWith fence (trim cs) = true

instance (cs : List Char) : Decidable (IsFenced cs) := inferInstanceAs (Decidable (_ = true))

/-- The text inside a fence with a tag. -/
def fenced (tag code : String) : String :=
  "\x60\x60\x60" ++ tag ++ "\n" ++ code ++ "\n\x60\x60\x60"

variable {l l' header header' : List Char} {lines body body' : List (List Char)}

/-! ### Lines with content -/

/-- Whether a line has content is seen when it is trimmed. -/
theorem isContent_congr (h : trim l = trim l') : isContent l = isContent l' := by
  simp [isContent, isComment, h]

/-- A line of white space does not count. -/
theorem isContent_of_allBlank (h : AllBlank l) : isContent l = false := by
  simp [isContent, trim_eq_nil_iff.mpr h]

/-- So is what a header declares. -/
theorem ofLine?_congr (h : trim l = trim l') : Declared.ofLine? l = Declared.ofLine? l' := by
  simp [Declared.ofLine?, h]

/-- White space at the ends of a header does not matter for its direction. -/
theorem headerDirection_congr (h : trim l = trim l') : headerDirection l = headerDirection l' := by
  simp [headerDirection, h]

/-- Of a later line at most the white space at its end does not count. -/
theorem counted_congr (hh : trim header = trim header') (hl : trimRight l = trimRight l') :
    counted header l = counted header' l' := by
  have htrim : trim l = trim l' := by
    rw [← trim_trimRight, hl, trim_trimRight]
  simp [counted, ofLine?_congr hh, hl, htrim]

/-- Lines without content may come first. -/
theorem contents_append_left {front : List (List Char)} (h : ∀ l ∈ front, isContent l = false)
    (lines : List (List Char)) : contents (front ++ lines) = contents lines := by
  have hfront : front.filter isContent = [] := by
    simpa using h
  simp [contents, List.filter_append, hfront]

/-- Lines without content may come last. -/
theorem contents_append_right {after : List (List Char)} (h : ∀ l ∈ after, isContent l = false)
    (lines : List (List Char)) : contents (lines ++ after) = contents lines := by
  have hafter : after.filter isContent = [] := by
    simpa using h
  simp [contents, List.filter_append, hafter]

/-- White space at the ends of lines does not count. -/
theorem contents_map_trimRight (lines : List (List Char)) :
    contents (lines.map trimRight) = contents lines := by
  have hfilter : (lines.map trimRight).filter isContent = (lines.filter isContent).map trimRight := by
    rw [List.filter_map]
    congr 1
    apply List.filter_congr
    intro l _
    exact isContent_congr (trim_trimRight l)
  unfold contents
  rw [hfilter]
  cases lines.filter isContent with
  | nil => rfl
  | cons header rest =>
    have hrest : (rest.map trimRight).map (counted (trimRight header)) =
        rest.map (counted header) := by
      rw [List.map_map]
      apply List.map_congr_left
      intro l _
      apply counted_congr (trim_trimRight header)
      exact trimRight_trimRight l
    simp [trim_trimRight, hrest]

/-! ### Bodies -/

/-- The header is the first line with content, and the body holds the others. -/
theorem contents_eq (lines : List (List Char)) :
    contents lines = (headerAndBody? lines).map fun p =>
      (trim p.1, (p.2.filter isContent).map (counted p.1)) := by
  induction lines with
  | nil => rfl
  | cons l rest ih =>
    by_cases hl : isContent l = true
    · simp [contents, headerAndBody?, hl]
    · have hrest : contents (l :: rest) = contents rest := by
        simp [contents, hl]
      have hbody : headerAndBody? (l :: rest) = headerAndBody? rest := by
        simp [headerAndBody?, hl]
      rw [hrest, hbody, ih]

/-- The depth of a topic is seen without the end of its line. -/
theorem depth_trimRight (h : isContent l = true) : Mindmap.depth (trimRight l) = Mindmap.depth l := by
  obtain ⟨ws, hws, hl⟩ := eq_trimRight_append l
  have hblank : ¬AllBlank (trimRight l) := by
    intro hb
    rw [isContent_of_allBlank (hl ▸ hb.append hws)] at h
    exact Bool.false_ne_true h
  have hleft : trimLeft (trimRight l ++ ws) = trimLeft (trimRight l) ++ ws := by
    rw [← trimLeft_eq_nil_iff, trimLeft] at hblank
    simp [trimLeft, List.dropWhile_append, hblank]
  conv_rhs => rw [hl, Mindmap.depth, hleft, List.length_append, List.length_append]
  rw [Mindmap.depth]
  congr 1
  omega

/-- A mindmap counts through its lines without the white space at their ends. -/
theorem mindmap_read_eq (body : List (List Char)) :
    (body.filter fun l => isContent l && !Mindmap.isIcon l).foldl Mindmap.Scan.feed {} =
      (((body.filter isContent).map trimRight).filter fun l => !Mindmap.isIcon l).foldl
        Mindmap.Scan.feed {} := by
  have hicon : ∀ l, Mindmap.isIcon (trimRight l) = Mindmap.isIcon l := by
    intro l
    simp [Mindmap.isIcon, trim_trimRight]
  have hfilter : (body.filter fun l => isContent l && !Mindmap.isIcon l) =
      (body.filter isContent).filter fun l => !Mindmap.isIcon l := by
    rw [List.filter_filter]
    apply List.filter_congr
    intro l _
    exact Bool.and_comm _ _
  rw [hfilter, List.filter_map, List.foldl_map]
  simp only [Function.comp_def, hicon]
  apply List.foldl_ext
  intro s l hl
  have hcontent : isContent l = true := (List.mem_filter.mp (List.mem_filter.mp hl).1).2
  simp [Mindmap.Scan.feed, depth_trimRight hcontent, trim_trimRight]

/-- A body is read through its contents. -/
theorem readBody_congr (hh : trim header = trim header')
    (hb : (body.filter isContent).map (counted header) =
      (body'.filter isContent).map (counted header')) :
    readBody header body = readBody header' body' := by
  have hkind := ofLine?_congr hh
  have hdirection := headerDirection_congr hh
  by_cases hmindmap : Declared.ofLine? header = some .mindmap
  · have hmindmap' := hkind ▸ hmindmap
    have hcounted : counted header = trimRight := funext fun l => by simp [counted, hmindmap]
    have hcounted' : counted header' = trimRight := funext fun l => by simp [counted, hmindmap']
    have hright : (body.filter isContent).map trimRight = (body'.filter isContent).map trimRight := by
      rwa [hcounted, hcounted'] at hb
    simp only [readBody, hmindmap, hmindmap', Mindmap.read]
    rw [mindmap_read_eq body, hright, ← mindmap_read_eq body']
  · have hmindmap' : Declared.ofLine? header' ≠ some .mindmap := hkind ▸ hmindmap
    have hcounted : counted header = trim := funext fun l => by simp [counted, hmindmap]
    have hcounted' : counted header' = trim := funext fun l => by simp [counted, hmindmap']
    have htrim : (body.filter isContent).map trim = (body'.filter isContent).map trim := by
      rwa [hcounted, hcounted'] at hb
    have hflowchart : ∀ d, Flowchart.read d body = Flowchart.read d body' := by
      intro d
      rw [Flowchart.read, htrim, Flowchart.read]
    have hsequence : Sequence.read body = Sequence.read body' := by
      rw [Sequence.read, htrim, Sequence.read]
    have hentities : Entities.read body = Entities.read body' := by
      rw [Entities.read, htrim, Entities.read]
    unfold readBody
    rw [← hkind, hsequence, hentities, hdirection]
    cases hdeclared : Declared.ofLine? header with
    | none => simp only [hflowchart]
    | some kind =>
      cases kind with
      | mindmap => exact absurd hdeclared hmindmap
      | flowchart => exact hflowchart _
      | sequence => rfl
      | entityRelationship => rfl
      | classes => simp only [hflowchart]
      | states => simp only [hflowchart]
      | gitGraph => simp only [hflowchart]

/-! ### Texts -/

/-- White space before a text touches its header at most. -/
theorem contents_lines_append_left {ws : List Char} (h : AllBlank ws) (cs : List Char) :
    contents (Text.lines (ws ++ cs)) = contents (Text.lines cs) := by
  obtain ⟨front, l, hws⟩ := exists_split_concat '\n' ws
  obtain ⟨m, after, hcs⟩ := exists_split_cons '\n' cs
  have hblank : ∀ k ∈ front ++ [l], AllBlank k := fun k hk => h.of_mem_split (hws ▸ hk)
  have hfront : ∀ k ∈ front, isContent k = false := fun k hk =>
    isContent_of_allBlank (hblank k (List.mem_append_left _ hk))
  have htrim : trim (l ++ m) = trim m := trim_append_left (hblank l (by simp)) m
  rw [Text.lines, split_append hws hcs, contents_append_left hfront, Text.lines, hcs]
  have hcontent := isContent_congr htrim
  by_cases hm : isContent m = true
  · have hcounted : counted (l ++ m) = counted m := funext fun k => counted_congr htrim rfl
    simp [contents, hcontent, hm, htrim, hcounted]
  · simp [contents, hcontent, hm]

/-- White space after a text touches the end of its last line at most. -/
theorem contents_lines_append_right {ws : List Char} (h : AllBlank ws) (cs : List Char) :
    contents (Text.lines (cs ++ ws)) = contents (Text.lines cs) := by
  obtain ⟨front, l, hcs⟩ := exists_split_concat '\n' cs
  obtain ⟨m, after, hws⟩ := exists_split_cons '\n' ws
  have hblank : ∀ k ∈ m :: after, AllBlank k := fun k hk => h.of_mem_split (hws ▸ hk)
  have hafter : ∀ k ∈ after, isContent k = false := fun k hk =>
    isContent_of_allBlank (hblank k (List.mem_cons_of_mem m hk))
  have htrim : trimRight (l ++ m) = trimRight l := trimRight_append (hblank m (by simp)) l
  calc contents (Text.lines (cs ++ ws)) = contents (front ++ [l ++ m] ++ after) := by
        rw [Text.lines, split_append hcs hws, List.append_assoc, List.singleton_append]
    _ = contents (front ++ [l ++ m]) := contents_append_right hafter _
    _ = contents ((front ++ [l]).map trimRight) := by
        rw [← contents_map_trimRight, List.map_append, List.map_append, List.map_singleton,
          List.map_singleton, htrim]
    _ = contents (Text.lines cs) := by
        rw [contents_map_trimRight, Text.lines, hcs]

/-- Trimming a text takes away nothing that counts. -/
theorem contents_lines_trim (cs : List Char) :
    contents (Text.lines (trim cs)) = contents (Text.lines cs) := by
  obtain ⟨ws, hws, hleft⟩ := eq_append_trimLeft cs
  obtain ⟨ws', hws', hright⟩ := eq_trimRight_append (trimLeft cs)
  calc contents (Text.lines (trim cs)) = contents (Text.lines (trim cs ++ ws')) :=
        (contents_lines_append_right hws' _).symm
    _ = contents (Text.lines (ws ++ trimLeft cs)) := by
        rw [contents_lines_append_left hws, trim, ← hright]
    _ = contents (Text.lines cs) := by rw [← hleft]

/-- Text without a fence is only trimmed. -/
theorem stripFences_of_not_isFenced {cs : List Char} (h : ¬IsFenced cs) :
    stripFences cs = trim cs := by
  have hnone : after? fence (trim cs) = none := by
    simpa [IsFenced, startsWith] using h
  rw [stripFences, hnone]

/-- A fence is taken off, and the text inside is left as it is. -/
theorem stripFences_fenced {tag : String} (htag : ∀ c ∈ tag.toList, isWord c = true ∨ c = '-')
    (code : String) : stripFences (fenced tag code).toList = code.toList := by
  have htext : (fenced tag code).toList =
      fence ++ (tag.toList ++ '\n' :: (code.toList ++ '\n' :: fence)) := by
    simp [fenced, fence]
  have hinside : code.toList ++ '\n' :: fence = (code.toList ++ ['\n']) ++ fence := by simp
  -- a fence has backticks at both ends, so there is nothing to trim
  have hhead : (fenced tag code).toList.head? = some '\x60' := by
    simp [htext, fence]
  have hlast : (fenced tag code).toList.getLast? = some '\x60' := by
    rw [htext, hinside, ← List.cons_append, ← List.append_assoc, ← List.append_assoc,
      List.getLast?_append]
    rfl
  have htrim : trim (fenced tag code).toList = (fenced tag code).toList := by
    apply trim_eq_self
    · rw [hhead]
      rintro c ⟨⟩
      rfl
    · rw [hlast]
      rintro c ⟨⟩
      rfl
  have hopening : afterOpening (tag.toList ++ '\n' :: (code.toList ++ '\n' :: fence)) =
      code.toList ++ '\n' :: fence := by
    have hnewline : (isWord '\n' || '\n' == '-') = false := by
      rw [isWord_of_lt (by decide)]
      decide
    have hdrop : (tag.toList ++ '\n' :: (code.toList ++ '\n' :: fence)).dropWhile
        (fun c => isWord c || c == '-') = '\n' :: (code.toList ++ '\n' :: fence) := by
      rw [List.dropWhile_append_of_pos (by simpa using htag), List.dropWhile_cons, hnewline]
      rfl
    simp [afterOpening, hdrop, after?]
  have hclosing : beforeClosing (code.toList ++ '\n' :: fence) = code.toList := by
    have hfence : before? fence (code.toList ++ '\n' :: fence) = some (code.toList ++ ['\n']) :=
      before?_eq_some_iff.mpr hinside
    have hnewline : before? ['\n'] (code.toList ++ ['\n']) = some code.toList :=
      before?_eq_some_iff.mpr rfl
    simp [beforeClosing, hfence, chomp, hnewline]
  rw [stripFences, htrim, htext, after?_eq_some_iff.mpr rfl]
  simp [hopening, hclosing]

end Source

open Source

/-- Texts with the same contents inside their fences are read alike. -/
theorem Diagram.parse_congr {code code' : String}
    (h : contents (Text.lines (stripFences code.toList)) =
      contents (Text.lines (stripFences code'.toList))) :
    Diagram.parse code = Diagram.parse code' := by
  rw [contents_eq, contents_eq] at h
  unfold Diagram.parse
  cases hbody : headerAndBody? (Text.lines (stripFences code.toList)) with
  | none =>
    cases hbody' : headerAndBody? (Text.lines (stripFences code'.toList)) with
    | none => rfl
    | some p' => simp [hbody, hbody'] at h
  | some p =>
    cases hbody' : headerAndBody? (Text.lines (stripFences code'.toList)) with
    | none => simp [hbody, hbody'] at h
    | some p' =>
      simp only [hbody, hbody', Option.map_some, Option.some.injEq, Prod.mk.injEq] at h
      simp only [readBody_congr h.1 h.2]

/-- Two texts outside of fences are read alike, or refused for the same reason, when their lines
with content are the same but for the white space around them, in a mindmap but for that at the
ends of lines. In a fence, whatever its tag, a text is read as it is outside of it. -/
theorem parse_eq_of_contents :
    (∀ code code' : String, ¬IsFenced code.toList → ¬IsFenced code'.toList →
      contents (Text.lines code.toList) = contents (Text.lines code'.toList) →
      Diagram.parse code = Diagram.parse code') ∧
    ∀ tag code : String, (∀ c ∈ tag.toList, isWord c = true ∨ c = '-') →
      ¬IsFenced code.toList → Diagram.parse (fenced tag code) = Diagram.parse code := by
  constructor
  · intro code code' hcode hcode' h
    apply Diagram.parse_congr
    rw [stripFences_of_not_isFenced hcode, stripFences_of_not_isFenced hcode',
      contents_lines_trim, contents_lines_trim, h]
  · intro tag code htag hcode
    apply Diagram.parse_congr
    rw [stripFences_fenced htag, stripFences_of_not_isFenced hcode, contents_lines_trim]

/-- Other line ends, blank lines, comments and indentation make no difference, and neither does a
fence; in a mindmap the ends of lines make none. -/
theorem parse_eq_of_contents_indented :
    Diagram.parse "graph LR\r\n\r\n  a --> b\r\n%% c\r\n" = Diagram.parse "  graph LR\na --> b" ∧
    Diagram.parse "mindmap\r\n a\r\n  b\t\r\n" = Diagram.parse "mindmap\n a\n\n  b" ∧
    Diagram.parse (fenced "mermaid-11" "\ngraph LR\na --> b\n") =
      Diagram.parse "\ngraph LR\na --> b\n" := by
  refine ⟨?_, ?_, ?_⟩
  · exact parse_eq_of_contents.1 _ _ (by decide) (by decide) (by decide)
  · exact parse_eq_of_contents.1 _ _ (by decide) (by decide) (by decide)
  · exact parse_eq_of_contents.2 "mermaid-11" _ (by decide) (by decide)

end Diagrams
