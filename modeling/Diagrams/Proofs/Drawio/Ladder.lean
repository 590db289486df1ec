import Diagrams.Proofs.Drawio.Range
import Diagrams.Proofs.Flowchart.Program
import Diagrams.Proofs.Layout.Ladder
import Diagrams.Proofs.Reading.Header
import Diagrams.Proofs.Reading.Words

/-!
# A text that is too wide to be drawn

Columns are numbers of limited range, and a short text can ask for more. In a ladder several arrows
lead from each name to the next one, so each of its lines may multiply the columns.

* `Flowchart.ladderText` — the text of a ladder; what is read from it (`parse_ladderText`) has the
  names and arrows of the ladder (`mem_names_ladder`, `graphOf_ladder`).
* `Flowchart.highNames` — the names of a ladder that is high enough.

**Main statement** (`isTooWide_high`): the text of this ladder is read, and cannot be drawn.
-/

namespace Diagrams.Flowchart

open Text Diagrams.Digraph

/-! ### The text of a ladder -/

/-- A name at which a connection can start. -/
def Rung : Type := {n : Name // n.chars ≠ groupKeyword.chars}

/-- The name as a text. -/
def Rung.text (r : Rung) : String := r.val.text

/-- No white space. -/
def noBlank : Space := ⟨[], List.forall_mem_nil _⟩

/-- A blank. -/
def oneBlank : Space := ⟨[' '], List.forall_mem_singleton.mpr rfl⟩

/-- An arrow from a name to another. -/
def Rung.to (a b : Rung) : Connection where
  source := ⟨a.val, none⟩
  source_ne := a.prop
  beforeArrow := oneBlank
  arrow := .solid
  label := none
  beforeTarget := oneBlank
  target := ⟨b.val, none⟩
  semicolons := 0

/-- Several arrows from each name to the next one. -/
def steps (k : Nat) : List Rung → List Connection
  | a :: b :: rest => List.replicate k (a.to b) ++ steps k (b :: rest)
  | _ => []

/-- The lines of the arrows. -/
def ladderLines (k : Nat) (rs : List Rung) : List WrittenLine :=
  (steps k rs).map fun c => ⟨noBlank, .connection c, noBlank⟩

/-- A flowchart of these lines. -/
def ladderText (k : Nat) (rs : List Rung) : String :=
  String.ofList (unlines ("graph TD".toList :: (ladderLines k rs).map WrittenLine.chars))

variable {k : Nat} {rs : List Rung} {l : List Char}

/-- The connections are steps between names of the ladder. -/
theorem exists_to_of_mem_steps {c : Connection} (h : c ∈ steps k rs) :
    ∃ a ∈ rs, ∃ b ∈ rs, c = a.to b := by
  induction rs using steps.induct with
  | case1 a b rest ih =>
    rcases List.mem_append.mp h with h | h
    · exact ⟨a, List.mem_cons_self, b, List.mem_cons_of_mem a List.mem_cons_self,
        List.eq_of_mem_replicate h⟩
    · obtain ⟨c, hc, d, hd, heq⟩ := ih h
      exact ⟨c, List.mem_cons_of_mem a hc, d, List.mem_cons_of_mem a hd, heq⟩
  | case2 rs hrs =>
    rw [steps.eq_2 k rs hrs] at h
    cases h

/-- A line is a name, an arrow and another name. -/
theorem exists_eq_of_mem_ladderLines (h : l ∈ (ladderLines k rs).map WrittenLine.chars) :
    ∃ a ∈ rs, ∃ b ∈ rs, l = a.val.chars ++ " --> ".toList ++ b.val.chars := by
  obtain ⟨line, hline, rfl⟩ := List.mem_map.mp h
  obtain ⟨c, hc, rfl⟩ := List.mem_map.mp hline
  obtain ⟨a, ha, b, hb, rfl⟩ := exists_to_of_mem_steps hc
  refine ⟨a, ha, b, hb, ?_⟩
  simp [WrittenLine.chars, Statement.chars, Rung.to, noBlank, oneBlank, Mention.chars,
    Mention.fragment, Connection.linkChars, Connection.labelledChars, Connection.targetChars,
    Arrow.token]

/-- The text is made of word characters, blanks, arrows and newlines. -/
theorem of_mem_ladderLines {c : Char} (hl : l ∈ (ladderLines k rs).map WrittenLine.chars)
    (hc : c ∈ l) : Text.isWord c = true ∨ c ∈ " -->".toList := by
  obtain ⟨a, -, b, -, rfl⟩ := exists_eq_of_mem_ladderLines hl
  rcases List.mem_append.mp hc with hc | hc
  · rcases List.mem_append.mp hc with hc | hc
    · exact .inl (a.val.isWord c hc)
    · have hmarks : ∀ d ∈ " --> ".toList, d ∈ " -->".toList := by decide
      exact .inr (hmarks c hc)
  · exact .inl (b.val.isWord c hc)

/-- There is no carriage return in it. -/
theorem return_notMem_ladderText (k : Nat) (rs : List Rung) : '\r' ∉ (ladderText k rs).toList := by
  rw [ladderText, String.toList_ofList]
  intro h
  obtain hnewline | ⟨l, hl, hc⟩ := mem_join h
  · exact absurd hnewline (by decide)
  · rcases List.mem_cons.mp hl with rfl | hl
    · exact absurd hc (by decide)
    · exact absurd (of_mem_ladderLines hl hc) (by decide)

/-- There are not more connections than this. -/
theorem length_steps_le (k : Nat) (rs : List Rung) : (steps k rs).length ≤ k * rs.length := by
  induction rs using steps.induct with
  | case1 a b rest ih =>
    rw [steps, List.length_append, List.length_replicate, List.length_cons, Nat.mul_succ]
    omega
  | case2 rs hrs =>
    rw [steps.eq_2 k rs hrs]
    exact Nat.zero_le _

/-- The text is not longer than its lines can be. -/
theorem length_ladderText_le {m : Nat} (h : ∀ r ∈ rs, r.val.chars.length ≤ m) :
    (ladderText k rs).toList.length ≤ (2 * m + 9) * (k * rs.length + 1) := by
  have hlines : ∀ l ∈ "graph TD".toList :: (ladderLines k rs).map WrittenLine.chars,
      l.length ≤ 2 * m + 8 := by
    rintro l hl
    rcases List.mem_cons.mp hl with rfl | hl
    · exact Nat.le_add_left 8 (2 * m)
    · obtain ⟨a, ha, b, hb, rfl⟩ := exists_eq_of_mem_ladderLines hl
      have harrow : " --> ".toList.length = 5 := by decide
      rw [List.length_append, List.length_append, harrow]
      have hstart := h a ha
      have hend := h b hb
      omega
  rw [ladderText, String.toList_ofList, unlines]
  refine (length_join_le hlines).trans (Nat.mul_le_mul_left _ ?_)
  rw [List.length_cons, List.length_map, ladderLines, List.length_map]
  exact Nat.succ_le_succ (length_steps_le k rs)

/-! ### What is read -/

/-- There is nothing to strip off the text. -/
theorem stripFences_ladderText (k : Nat) (rs : List Rung) :
    Source.stripFences (ladderText k rs).toList =
      unlines ("graph TD".toList :: (ladderLines k rs).map WrittenLine.chars) := by
  set ls := (ladderLines k rs).map WrittenLine.chars
  obtain ⟨rest, hrest⟩ : ∃ rest, unlines ("graph TD".toList :: ls) = "graph TD".toList ++ rest := by
    cases ls with
    | nil => exact ⟨[], rfl⟩
    | cons l ls => exact ⟨'\n' :: unlines (l :: ls), rfl⟩
  have hhead : ∀ c ∈ (unlines ("graph TD".toList :: ls)).head?, isBlank c = false := by
    rw [hrest]
    intro c hc
    obtain rfl := Option.some.inj hc
    decide
  -- the last line is the header, or it ends with a name
  have hlast : ∀ c ∈ (unlines ("graph TD".toList :: ls)).getLast?, isBlank c = false := by
    rcases List.eq_nil_or_concat ls with hnil | ⟨front, l, hconcat⟩
    · rw [hnil]
      exact isBlank_getLast?_concat (c := 'D') (by decide) "graph T".toList
    · have hmem : l ∈ ls := by
        rw [hconcat, List.concat_eq_append]
        exact List.mem_append_right front List.mem_cons_self
      obtain ⟨a, -, b, -, hl⟩ := exists_eq_of_mem_ladderLines hmem
      obtain ⟨start, hstart⟩ := exists_join_concat '\n' ("graph TD".toList :: front) l
      rw [hconcat, List.concat_eq_append, unlines, ← List.cons_append, hstart, hl,
        ← List.append_assoc]
      exact isBlank_getLast?_name b.val _
  rw [ladderText, String.toList_ofList, Source.stripFences, trim_eq_self hhead hlast, hrest]
  rfl

/-- The lines of the text are those it is made of. -/
theorem lines_ladderText (k : Nat) (rs : List Rung) :
    Text.lines (Source.stripFences (ladderText k rs).toList) =
      "graph TD".toList :: (ladderLines k rs).map WrittenLine.chars := by
  rw [stripFences_ladderText]
  apply split_join (List.cons_ne_nil _ _)
  intro l hl
  rcases List.mem_cons.mp hl with rfl | hl
  · decide
  · exact fun hc => absurd (of_mem_ladderLines hl hc) (by decide)

/-- The first line counts. -/
theorem hasContent_ladderText (k : Nat) (rs : List Rung) : Source.HasContent (ladderText k rs) :=
  ⟨"graph TD".toList, lines_ladderText k rs ▸ List.mem_cons_self, by decide⟩

/-- What the lines say. -/
def ladderDiagram (k : Nat) (rs : List Rung) : Diagram :=
  read .td ((ladderLines k rs).map WrittenLine.chars)

/-- The text is read as a flowchart of its lines. -/
theorem parse_ladderText (k : Nat) (rs : List Rung) :
    Diagram.parse (ladderText k rs) = .ok (ladderDiagram k rs) := by
  have hbody : Source.headerAndBody?
      ("graph TD".toList :: (ladderLines k rs).map WrittenLine.chars) =
        some ("graph TD".toList, (ladderLines k rs).map WrittenLine.chars) := rfl
  have hheader : Source.Declared.ofLine? "graph TD".toList = some .flowchart := by decide
  have hdirection : Source.headerDirection "graph TD".toList = .td := by decide
  rw [Diagram.parse, lines_ladderText, hbody]
  simp only [Source.readBody, hheader, hdirection, ladderDiagram]

/-- The names of both ends of each connection. -/
def ends (c : Connection) : String × String := (c.source.name.text, c.target.name.text)

/-- The ends of the steps are the arrows of a ladder. -/
theorem map_ends_steps (k : Nat) (rs : List Rung) :
    (steps k rs).map ends = rungs k (rs.map Rung.text) := by
  induction rs using steps.induct with
  | case1 a b rest ih =>
    rw [steps, List.map_append, List.map_replicate, ih]
    rfl
  | case2 rs hrs =>
    obtain _ | ⟨a, _ | ⟨b, rest⟩⟩ := rs
    · rfl
    · rfl
    · exact absurd rfl (hrs a b rest)

/-- The statements on the lines are the steps. -/
theorem statements_ladderLines (k : Nat) (rs : List Rung) :
    (ladderLines k rs).map WrittenLine.statement = (steps k rs).map Statement.connection := by
  rw [ladderLines, List.map_map]
  rfl

/-- The nodes that are read, one for each name that is mentioned. -/
def ladderNodes (k : Nat) (rs : List Rung) : List Node :=
  let ms := mentions ((steps k rs).map Statement.connection)
  (names ms).map (nodeOf ms)

/-- The nodes that are read are those of the names that are mentioned. -/
theorem nodes_ladder (k : Nat) (rs : List Rung) :
    (ladderDiagram k rs).nodes = (ladderNodes k rs).map .node := by
  rw [ladderDiagram, read, foldl_program, statements_ladderLines]
  simp [known, nodeTable, Table.values, ladderNodes]

/-- The arrows that are read are those of a ladder. -/
theorem graphOf_ladder (k : Nat) (rs : List Rung) :
    Layout.graphOf (ladderDiagram k rs).edges = ladder k (rs.map Rung.text) := by
  rw [ladder, ← map_ends_steps, ladderDiagram, read, foldl_program, statements_ladderLines]
  have hconnections : ((steps k rs).map Statement.connection).filterMap Statement.connection? =
      steps k rs := by
    rw [List.filterMap_map]
    exact List.filterMap_some
  rw [Layout.graphOf, Digraph.mk.injEq, known, edges, hconnections, List.map_map, List.map_map]
  conv_rhs => rw [← List.zipIdx_map_fst 0 (steps k rs), List.map_map]
  rfl

/-- The nodes have the names that are mentioned. -/
theorem ids_ladderNodes (k : Nat) (rs : List Rung) :
    (ladderNodes k rs).map Node.id = names (mentions ((steps k rs).map Statement.connection)) := by
  have hid : ∀ (ms : List Mention) (id : String), (nodeOf ms id).id = id := by
    intro ms id
    unfold nodeOf
    split <;> rfl
  rw [ladderNodes, List.map_map]
  exact List.map_id'' (hid _) _

/-- These are the names of the ladder. -/
theorem mem_ids_ladderNodes {a b : Rung} {rest : List Rung} (hk : k ≠ 0) (n : String) :
    n ∈ (ladderNodes k (a :: b :: rest)).map Node.id ↔ n ∈ (a :: b :: rest).map Rung.text := by
  rw [ids_ladderNodes, mem_names, List.map_cons, List.map_cons, mem_iff_exists_rungs hk]
  have hrungs := map_ends_steps k (a :: b :: rest)
  rw [List.map_cons, List.map_cons] at hrungs
  rw [← hrungs]
  simp only [mentions, List.flatMap_map, List.mem_flatMap, Statement.mentions, List.mem_cons,
    List.not_mem_nil, or_false, List.mem_map]
  constructor
  · rintro ⟨m, ⟨c, hc, rfl | rfl⟩, rfl⟩
    · exact ⟨_, ⟨c, hc, rfl⟩, .inl rfl⟩
    · exact ⟨_, ⟨c, hc, rfl⟩, .inr rfl⟩
  · rintro ⟨_, ⟨c, hc, rfl⟩, rfl | rfl⟩
    · exact ⟨c.source, ⟨c, hc, .inl rfl⟩, rfl⟩
    · exact ⟨c.target, ⟨c, hc, .inr rfl⟩, rfl⟩

/-- No terminals are added where nodes are named like them. -/
theorem withTerminals_of_named {d : Diagram} (hkind : d.kind = Dialect.flowchart)
    (hstart : "Start" ∈ d.nodes.map Element.id) (hstop : "Stop" ∈ d.nodes.map Element.id) :
    Layout.withTerminals d = ⟨d.nodes, d.edges⟩ := by
  have hnamed : ∀ words : List String, ∀ id ∈ d.nodes.map Element.id,
      String.ofList (Text.lower id.toList) ∈ words → d.nodes.any (Layout.isNamed words) = true := by
    intro words id hid hword
    obtain ⟨n, hn, rfl⟩ := List.mem_map.mp hid
    exact List.any_eq_true.mpr ⟨n, hn, by simp [Layout.isNamed, hword]⟩
  have hstart' := hnamed ["start"] "Start" hstart (by decide)
  have hstop' := hnamed ["stop", "end"] "Stop" hstop (by decide)
  rw [Layout.withTerminals_flowchart hkind, Layout.Charted.addStart, if_pos (.inr hstart'),
    Layout.Charted.addStop, if_pos (.inr hstop')]

/-- A ladder that is high enough is too wide. -/
theorem isTooWide_ladder {a b : Rung} {rest : List Rung}
    (hnodup : ((a :: b :: rest).map Rung.text).Nodup)
    (hstart : "Start" ∈ (a :: b :: rest).map Rung.text)
    (hstop : "Stop" ∈ (a :: b :: rest).map Rung.text)
    (hheight : 4 * 2 ^ 1023 < (k + 2) ^ rest.length) :
    (ladderDiagram (k + 2) (a :: b :: rest)).IsTooWide .binary64 := by
  set d := ladderDiagram (k + 2) (a :: b :: rest)
  have hmem : ∀ n, n ∈ (ladderNodes (k + 2) (a :: b :: rest)).map Node.id ↔
      n ∈ (a :: b :: rest).map Rung.text := mem_ids_ladderNodes (Nat.succ_ne_zero _)
  have hids : d.nodes.map Element.id = (ladderNodes (k + 2) (a :: b :: rest)).map Node.id := by
    rw [nodes_ladder, List.map_map]
    rfl
  have hterminals : Layout.withTerminals d = ⟨d.nodes, d.edges⟩ :=
    withTerminals_of_named rfl (hids ▸ (hmem _).mpr hstart) (hids ▸ (hmem _).mpr hstop)
  refine .inl ⟨rfl, ladderNodes (k + 2) (a :: b :: rest), ?_, ?_⟩
  · rw [hterminals]
    exact nodes_ladder _ _
  rw [hterminals, graphOf_ladder]
  refine Layout.columnsInRange_ladder hnodup (by rwa [List.length_map]) ?_ hmem _
  rw [ids_ladderNodes]
  exact nodup_eraseDups _

/-! ### A ladder that is high enough -/

/-- A name that is not the keyword of a group's start, since it starts with another letter. -/
def Rung.ofRun (c : Char) (cs : List Char) (hc : c ≠ 's') (h : ∀ d ∈ c :: cs, isWord d = true) :
    Rung :=
  ⟨⟨c :: cs, List.cons_ne_nil c cs, h⟩, fun heq => hc (List.cons.inj heq).1⟩

/-- A name with a number. -/
def Rung.numbered (n : Nat) : Rung :=
  .ofRun 'n' (toString n).toList (by decide) (List.forall_mem_cons.mpr ⟨by decide, isRun_natRepr n⟩)

/-- Names from the start to the stop, with others between them. -/
def highNames : List Rung :=
  .ofRun 'S' "tart".toList (by decide) (by decide) :: .numbered 0 ::
    ((List.range' 1 211).map Rung.numbered ++ [.ofRun 'S' "top".toList (by decide) (by decide)])

/-- The text of a numbered name. -/
theorem Rung.text_numbered (n : Nat) : (Rung.numbered n).text = "n" ++ toString n := by
  apply String.toList_inj.mp
  simp [Rung.text, Rung.numbered, Rung.ofRun, Name.text]

/-- The names between the start and the stop are numbered. -/
theorem map_text_highNames : highNames.map Rung.text =
    "Start" :: ((List.range' 0 212).map (fun n => "n" ++ toString n) ++ ["Stop"]) := by
  have hnumbered : Rung.text ∘ Rung.numbered = fun n => "n" ++ toString n :=
    funext Rung.text_numbered
  rw [List.range'_succ, List.map_cons, highNames, List.map_cons, List.map_cons, List.map_append,
    List.map_map, hnumbered, Rung.text_numbered]
  rfl

/-- The names differ. -/
theorem nodup_highNames : (highNames.map Rung.text).Nodup := by
  have hletter : ∀ s ∈ (List.range' 0 212).map (fun n => "n" ++ toString n),
      s.toList.head? = some 'n' := by
    intro s hs
    obtain ⟨n, -, rfl⟩ := List.mem_map.mp hs
    rw [String.toList_append]
    rfl
  have hnumbered : ((List.range' 0 212).map fun n => "n" ++ toString n).Nodup :=
    List.Nodup.map (fun _ _ h => append_toString_inj h) List.nodup_range'
  rw [map_text_highNames, List.nodup_cons, List.mem_append, List.mem_singleton]
  refine ⟨?_, List.nodup_append.mpr ⟨hnumbered, List.nodup_singleton _, ?_⟩⟩
  · rintro (h | h)
    · exact absurd (hletter _ h) (by decide)
    · exact absurd h (by decide)
  · rintro s hs t ht rfl
    rw [List.mem_singleton.mp ht] at hs
    exact absurd (hletter _ hs) (by decide)

/-- The text of thirty arrows from each of these names to the next one is not long. -/
theorem length_high_le : (ladderText 30 highNames).toList.length ≤ 130000 := by
  have hshort : ∀ r ∈ highNames, r.val.chars.length ≤ 5 := by decide +kernel
  have hlength : highNames.length = 214 := by decide +kernel
  exact (length_ladderText_le hshort).trans (by rw [hlength]; norm_num)

/-- **Main statement.** The text of thirty arrows from each of these names to the next one is read, and
cannot be drawn. -/
theorem isTooWide_high : ∃ d, Diagram.parse (ladderText 30 highNames) = .ok d ∧
    d.IsTooWide .binary64 := by
  have hstop : "Stop" ∈ highNames.map Rung.text := by
    rw [map_text_highNames]
    exact List.mem_cons_of_mem _ (List.mem_append_right _ List.mem_cons_self)
  refine ⟨_, parse_ladderText 30 highNames,
    isTooWide_ladder nodup_highNames List.mem_cons_self hstop ?_⟩
  rw [List.length_append, List.length_map, List.length_range', List.length_singleton]
  decide +kernel

end Diagrams.Flowchart
