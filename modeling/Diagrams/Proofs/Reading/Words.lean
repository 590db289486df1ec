import Diagrams.Parse
import Diagrams.Proofs.Text.Pieces

/-!
# Names are words

**Main statement** (`isWorded_of_parse`): in a diagram that was read from text all names are made of
word characters, and all shapes, line patterns, keys and marks are among those that have a meaning.
A diagram that comes from a record may hold other names and foreign words.

Names are taken from a line by `Text.name?`, or are numbered; terms are chosen by what is recognised
in a line. So one lemma for each dialect says what a line gives (`Flowchart.Line.isWorded_ofText`
and its kin), and scans keep to it.
-/

namespace Diagrams

open Text

/-! ### Words and known terms -/

/-- The text is a run of word characters. -/
def Text.IsRun (text : String) : Prop := ∀ c ∈ text.toList, isWord c = true

/-- The term is a value of the vocabulary. -/
def Term.IsKnown {α : Type} [Vocabulary α] (t : Term α) : Prop := ∃ a, t = .known a

namespace Text

variable {cs run rest : List Char} {s t : String}

/-- Word characters make a word. -/
theorem isRun_ofList (h : ∀ c ∈ run, isWord c = true) : IsRun (String.ofList run) := by
  rw [IsRun, String.toList_ofList]
  exact h

/-- What is taken from a line as a name is a run of word characters. -/
theorem isRun_of_name? (h : name? cs = some (run, rest)) : IsRun (String.ofList run) := by
  obtain ⟨n, rfl, -⟩ := exists_name_of_name? h
  exact isRun_ofList n.isWord

/-- Two words make a word. -/
theorem IsRun.append (hs : IsRun s) (ht : IsRun t) : IsRun (s ++ t) := by
  rw [IsRun, String.toList_append]
  exact List.forall_mem_append.mpr ⟨hs, ht⟩

/-- The digits of a number make a word. -/
theorem isRun_natRepr (n : Nat) : IsRun (toString n) := by
  intro c hc
  have hdigits : (toString n).toList = Nat.toDigits 10 n := Nat.toList_repr
  rw [hdigits] at hc
  have hdigit : c.isDigit = true := Nat.isDigit_of_mem_toDigits (by decide) (by decide) hc
  exact isWord_of_isAlphanum (by simp [Char.isAlphanum, hdigit])

end Text

/-- Names are words, and terms have a meaning. -/
structure Diagram.IsWorded (d : Diagram) : Prop where
  /-- Names of nodes, and so of all that refers to nodes. -/
  names : ∀ n ∈ d.nodes, IsRun n.id
  /-- Shapes of nodes. -/
  shapes : ∀ n, .node n ∈ d.nodes → n.shape.IsKnown
  /-- Line patterns of edges. -/
  arrows : ∀ e, .edge e ∈ d.edges → ∀ a ∈ e.arrow, a.line.IsKnown
  /-- Keys of attributes. -/
  keys : ∀ e ∈ d.entities, ∀ a ∈ e.attributes, ∀ k ∈ a.keys, k.IsKnown
  /-- Marks of relationships. -/
  marks : ∀ r ∈ d.relationships, r.startMark.IsKnown ∧ r.endMark.IsKnown

/-! ### Flowcharts -/

namespace Flowchart

variable {cs : List Char}

/-- The name where a connection starts is a word. -/
theorem isRun_connection {id label target : List Char} {fragment : Option (List Char)}
    {arrow : Arrow} (h : connection? cs = some (id, fragment, arrow, label, target)) :
    IsRun (String.ofList id) := by
  obtain ⟨⟨name, rest⟩, hname, h⟩ := Option.bind_eq_some_iff.mp h
  obtain ⟨_, -, h⟩ := Option.bind_eq_some_iff.mp h
  cases h
  exact isRun_of_name? hname

/-- The name of a target is a word. -/
theorem isRun_target {t : Target} (h : Target.ofText? cs = some t) : IsRun t.id := by
  obtain ⟨⟨name, rest⟩, hname, h⟩ := Option.bind_eq_some_iff.mp h
  cases h
  exact isRun_of_name? hname

/-- The name of a declaration is a word. -/
theorem isRun_declaration {id fragment : List Char} (h : declaration? cs = some (id, fragment)) :
    IsRun (String.ofList id) := by
  obtain ⟨⟨name, rest⟩, hname, h⟩ := Option.bind_eq_some_iff.mp h
  dsimp only at h
  split at h
  · cases h
    exact isRun_of_name? hname
  · cases h

/-- The names of nodes that a line gives are words. -/
def Line.IsWorded : Line → Prop
  | connection source _ _ target => IsRun source.id ∧ IsRun target.id
  | declaration id _ => IsRun id
  | groupStart .. | groupEnd | ignored => True

/-- Names on a line of a flowchart are words. -/
theorem Line.isWorded_ofText (cs : List Char) : (Line.ofText cs).IsWorded := by
  unfold Line.ofText
  split
  · split <;> trivial
  · split
    · trivial
    · split
      · rename_i hconnection
        split
        · rename_i htarget
          exact ⟨isRun_connection hconnection, isRun_target htarget⟩
        · trivial
      · split
        · rename_i hdeclaration
          exact isRun_declaration hdeclaration
        · trivial

namespace Scan

/-- The nodes have words for names and known shapes, and the edges known patterns. -/
structure IsWorded (s : Scan) : Prop where
  /-- Nodes. -/
  nodes : ∀ e ∈ s.nodes, IsRun e.2.id ∧ e.2.shape.IsKnown
  /-- Edges. -/
  edges : ∀ e ∈ s.edges, ∀ a ∈ e.arrow, a.line.IsKnown

variable {s : Scan}

/-- After a mention all names are words. -/
theorem IsWorded.declare (h : s.IsWorded) {t : Target} (ht : IsRun t.id) :
    (s.declare t).IsWorded := by
  unfold Scan.declare
  split
  · exact { h with nodes := Table.forall_insert h.nodes ⟨ht, _, rfl⟩ }
  · exact { h with nodes := Table.forall_insertNew h.nodes ⟨ht, _, rfl⟩ }

/-- After a node has joined a group all names are words. -/
theorem IsWorded.join (h : s.IsWorded) (id : String) : (s.join id).IsWorded :=
  ⟨h.nodes, h.edges⟩

/-- **Step.** After one more line all names are words. -/
theorem IsWorded.step (h : s.IsWorded) {line : Line} (hline : line.IsWorded) :
    (s.step line).IsWorded := by
  cases line with
  | groupStart id label => exact ⟨h.nodes, h.edges⟩
  | groupEnd =>
    simp only [Scan.step]
    split
    · exact ⟨h.nodes, h.edges⟩
    · exact h
  | connection a arrow label b =>
    have h' := (((h.declare hline.1).declare hline.2).join a.id).join b.id
    refine ⟨h'.nodes, List.forall_mem_append.mpr ⟨h'.edges, List.forall_mem_singleton.mpr ?_⟩⟩
    intro style hstyle
    cases hstyle
    cases arrow <;> exact ⟨_, rfl⟩
  | declaration id fragment => exact (h.declare (t := ⟨id, some fragment⟩) hline).join id
  | ignored => exact h

/-- **Run.** After all lines all names are words. -/
theorem isWorded_run (lines : List (List Char)) : (lines.foldl Scan.feed {}).IsWorded :=
  List.foldlRecOn lines Scan.feed ⟨List.forall_mem_nil _, List.forall_mem_nil _⟩
    fun _ hs line _ => hs.step (Line.isWorded_ofText line)

end Scan

/-- What is read of a flowchart has words for names. -/
theorem isWorded_read (direction : Direction) (lines : List (List Char)) :
    (Flowchart.read direction lines).IsWorded := by
  have hrun := Scan.isWorded_run ((lines.filter Source.isContent).map Text.trim)
  unfold Flowchart.read
  generalize ((lines.filter Source.isContent).map Text.trim).foldl Scan.feed {} = s at hrun ⊢
  refine
    { names := ?_, shapes := ?_, arrows := ?_
      keys := List.forall_mem_nil _, marks := List.forall_mem_nil _ }
  · exact List.forall_mem_map.mpr (List.forall_mem_map.mpr fun e he => (hrun.nodes e he).1)
  · intro n hn
    obtain ⟨m, hm, heq⟩ := List.mem_map.mp hn
    obtain ⟨e, he, rfl⟩ := List.mem_map.mp hm
    cases heq
    exact (hrun.nodes e he).2
  · intro e he
    obtain ⟨f, hf, heq⟩ := List.mem_map.mp he
    cases heq
    exact hrun.edges _ hf

end Flowchart

/-! ### Sequence diagrams -/

namespace Sequence

/-- The names of participants that a line gives are words. -/
def Line.IsWorded : Line → Prop
  | declaration _ id _ => IsRun id
  | message source _ target _ => IsRun source ∧ IsRun target
  | ignored => True

/-- Names on a line of a sequence diagram are words. -/
theorem Line.isWorded_ofText (cs : List Char) : (Line.ofText cs).IsWorded := by
  unfold Line.ofText
  split
  · rename_i hdeclaration
    obtain ⟨_, -, h⟩ := Option.bind_eq_some_iff.mp hdeclaration
    obtain ⟨_, -, h⟩ := Option.bind_eq_some_iff.mp h
    obtain ⟨_, hname, h⟩ := Option.bind_eq_some_iff.mp h
    obtain ⟨_, -, h⟩ := Option.bind_eq_some_iff.mp h
    cases h
    exact isRun_of_name? hname
  · split
    · rename_i hmessage
      obtain ⟨_, hsource, h⟩ := Option.bind_eq_some_iff.mp hmessage
      obtain ⟨_, -, h⟩ := Option.bind_eq_some_iff.mp h
      obtain ⟨_, htarget, h⟩ := Option.bind_eq_some_iff.mp h
      obtain ⟨_, -, h⟩ := Option.bind_eq_some_iff.mp h
      dsimp only at h
      split at h
      · cases h
      · cases h
        exact ⟨isRun_of_name? hsource, isRun_of_name? htarget⟩
    · trivial

namespace Scan

/-- The participants have words for names, and the messages known patterns. -/
structure IsWorded (s : Scan) : Prop where
  /-- Participants. -/
  participants : ∀ e ∈ s.participants, IsRun e.2.id
  /-- Messages. -/
  messages : ∀ m ∈ s.messages, m.line.IsKnown

variable {s : Scan}

/-- After a mention all names are words. -/
theorem IsWorded.mention (h : s.IsWorded) {id : String} (hid : IsRun id) :
    (s.mention id).IsWorded :=
  { h with participants := Table.forall_insertNew h.participants hid }

/-- **Step.** After one more line all names are words. -/
theorem IsWorded.step (h : s.IsWorded) {line : Line} (hline : line.IsWorded) :
    (s.step line).IsWorded := by
  cases line with
  | declaration isActor id label =>
    exact { h with participants := Table.forall_insert h.participants hline }
  | message source arrow target text =>
    have h' := (h.mention hline.1).mention hline.2
    refine ⟨h'.participants, List.forall_mem_append.mpr
      ⟨h'.messages, List.forall_mem_singleton.mpr ?_⟩⟩
    dsimp only
    split <;> exact ⟨_, rfl⟩
  | ignored => exact h

/-- **Run.** After all lines all names are words. -/
theorem isWorded_run (lines : List (List Char)) : (lines.foldl Scan.feed {}).IsWorded :=
  List.foldlRecOn lines Scan.feed ⟨List.forall_mem_nil _, List.forall_mem_nil _⟩
    fun _ hs line _ => hs.step (Line.isWorded_ofText line)

end Scan

/-- What is read of a sequence diagram has words for names. -/
theorem isWorded_read (lines : List (List Char)) : (Sequence.read lines).IsWorded := by
  have hrun := Scan.isWorded_run ((lines.filter Source.isContent).map Text.trim)
  unfold Sequence.read
  generalize ((lines.filter Source.isContent).map Text.trim).foldl Scan.feed {} = s at hrun ⊢
  refine
    { names := ?_, shapes := ?_, arrows := ?_
      keys := List.forall_mem_nil _, marks := List.forall_mem_nil _ }
  · exact List.forall_mem_map.mpr (List.forall_mem_map.mpr hrun.participants)
  · intro n hn
    obtain ⟨p, -, heq⟩ := List.mem_map.mp hn
    cases heq
  · intro e he
    obtain ⟨f, hf, heq⟩ := List.mem_map.mp he
    cases heq
    obtain ⟨⟨m, i⟩, hm, rfl⟩ := List.mem_map.mp hf
    intro a ha
    cases ha
    exact hrun.messages m (List.fst_mem_of_mem_zipIdx hm)

end Sequence

/-! ### Entity-relationship diagrams -/

namespace Entities

variable {cs : List Char}

/-- The keys of an attribute are known ones. -/
def HasKnownKeys (a : Attribute) : Prop := ∀ k ∈ a.keys, k.IsKnown

/-- The keys of an attribute are known. -/
theorem hasKnownKeys_attribute {a : Attribute} (h : attribute? cs = some a) : HasKnownKeys a := by
  obtain ⟨_, -, h⟩ := Option.bind_eq_some_iff.mp h
  obtain ⟨_, -, h⟩ := Option.bind_eq_some_iff.mp h
  obtain ⟨_, -, h⟩ := Option.bind_eq_some_iff.mp h
  obtain ⟨_, -, h⟩ := Option.bind_eq_some_iff.mp h
  cases h
  exact List.forall_mem_map.mpr fun k _ => ⟨k, rfl⟩

/-- The keys of attributes that are paired from words are known. -/
theorem hasKnownKeys_pairAttributes {words : List (List Char)} {attributes : List Attribute}
    (h : pairAttributes words = some attributes) : ∀ a ∈ attributes, HasKnownKeys a := by
  fun_induction pairAttributes words generalizing attributes with
  | case1 =>
    cases h
    exact List.forall_mem_nil _
  | case2 => cases h
  | case3 type name rest ih =>
    obtain ⟨later, hlater, rfl⟩ := Option.map_eq_some_iff.mp h
    exact List.forall_mem_cons.mpr ⟨List.forall_mem_nil _, ih hlater⟩

/-- The first name of a relationship is a word, even if it gives its last letter to the mark. -/
theorem isRun_start {name : List Char} {link : Option Cardinality × Bool × List Char}
    (h : start? cs = some (name, link)) : IsRun (String.ofList name) := by
  obtain ⟨⟨run, after⟩, hname, h⟩ := Option.bind_eq_some_iff.mp h
  obtain ⟨n, rfl, -⟩ := exists_name_of_name? hname
  dsimp only at h
  split at h
  · cases h
    exact isRun_ofList n.isWord
  · split at h
    · obtain ⟨_, -, h⟩ := Option.bind_eq_some_iff.mp h
      cases h
      exact isRun_ofList fun c hc => n.isWord c (List.dropLast_subset _ hc)
    · cases h

/-- The names and the marks of a relationship. -/
def Ends (r : Relationship) : Prop :=
  (IsRun r.source ∧ IsRun r.target) ∧ r.startMark.IsKnown ∧ r.endMark.IsKnown

/-- The ends of a relationship are words, and its marks are known. -/
theorem ends_relationship {r : Relationship} (h : relationship? cs = some r) : Ends r := by
  obtain ⟨_, hstart, h⟩ := Option.bind_eq_some_iff.mp h
  obtain ⟨_, htarget, h⟩ := Option.bind_eq_some_iff.mp h
  obtain ⟨_, -, h⟩ := Option.bind_eq_some_iff.mp h
  obtain ⟨_, -, h⟩ := Option.bind_eq_some_iff.mp h
  cases h
  exact ⟨⟨isRun_start hstart, isRun_of_name? htarget⟩, ⟨_, rfl⟩, ⟨_, rfl⟩⟩

/-- The name of an entity that is opened is a word. -/
theorem isRun_opening {name : List Char} (h : opening? cs = some name) :
    IsRun (String.ofList name) := by
  obtain ⟨_, hname, h⟩ := Option.bind_eq_some_iff.mp h
  dsimp only at h
  split at h
  · cases h
    exact isRun_of_name? hname
  · cases h

/-- The name of a short description is a word, and the keys in it are known. -/
theorem isWorded_shorthand {name : List Char} {attributes : List Attribute}
    (h : shorthand? cs = some (name, attributes)) :
    IsRun (String.ofList name) ∧ ∀ a ∈ attributes, HasKnownKeys a := by
  obtain ⟨_, hname, h⟩ := Option.bind_eq_some_iff.mp h
  obtain ⟨_, -, h⟩ := Option.bind_eq_some_iff.mp h
  obtain ⟨_, -, h⟩ := Option.bind_eq_some_iff.mp h
  obtain ⟨_, hattributes, h⟩ := Option.bind_eq_some_iff.mp h
  split at h
  · cases h
  · cases h
    exact ⟨isRun_of_name? hname, hasKnownKeys_pairAttributes hattributes⟩

/-- The names that a line gives are words, and the keys and marks known ones. -/
def Line.IsWorded : Line → Prop
  | blockStart name => IsRun name
  | .«attribute» a => HasKnownKeys a
  | relationship r => Ends r
  | entity name attributes => IsRun name ∧ ∀ a ∈ attributes, HasKnownKeys a
  | blockEnd | ignored => True

/-- Names on a line of an entity-relationship diagram are words, and keys are known. -/
theorem Line.isWorded_ofText (inBlock : Bool) (cs : List Char) :
    (Line.ofText inBlock cs).IsWorded := by
  unfold Line.ofText
  split
  · trivial
  · split
    · rename_i hopening
      exact isRun_opening hopening
    · split
      · rename_i hattribute
        split at hattribute
        · exact hasKnownKeys_attribute hattribute
        · cases hattribute
      · unfold Line.ofOther
        split
        · rename_i hrelationship
          exact ends_relationship hrelationship
        · split
          · rename_i hshorthand
            exact isWorded_shorthand hshorthand
          · trivial

namespace Scan

/-- The entities have words for names and known keys, and the relationships known marks. -/
structure IsWorded (s : Scan) : Prop where
  /-- Entities. -/
  entities : ∀ e ∈ s.entities, IsRun e.2.id ∧ ∀ a ∈ e.2.attributes, HasKnownKeys a
  /-- Relationships. -/
  relationships : ∀ r ∈ s.relationships, r.startMark.IsKnown ∧ r.endMark.IsKnown

variable {s : Scan}

/-- After a mention all names are words. -/
theorem IsWorded.mention (h : s.IsWorded) {name : String} (hname : IsRun name) :
    (s.mention name).IsWorded :=
  { h with entities := Table.forall_insertNew h.entities ⟨hname, List.forall_mem_nil _⟩ }

/-- After a description all keys are known. -/
theorem IsWorded.describe (h : s.IsWorded) (name : String) {attributes : List Attribute}
    (hattributes : ∀ a ∈ attributes, HasKnownKeys a) : (s.describe name attributes).IsWorded := by
  refine { h with entities := Table.forall_adjust h.entities name fun _ e he => ?_ }
  exact ⟨he.1, List.forall_mem_append.mpr ⟨he.2, hattributes⟩⟩

/-- **Step.** After one more line all names are words, and all keys are known. -/
theorem IsWorded.step (h : s.IsWorded) {line : Line} (hline : line.IsWorded) :
    (s.step line).IsWorded := by
  cases line with
  | blockStart name =>
    have h' := h.mention hline
    exact ⟨h'.entities, h'.relationships⟩
  | blockEnd => exact ⟨h.entities, h.relationships⟩
  | «attribute» a =>
    simp only [Scan.step]
    split
    · rename_i name _
      exact h.describe name (List.forall_mem_singleton.mpr hline)
    · exact h
  | relationship r =>
    obtain ⟨⟨hsource, htarget⟩, hmarks⟩ := hline
    have h' := (h.mention hsource).mention htarget
    exact ⟨h'.entities, List.forall_mem_append.mpr
      ⟨h'.relationships, List.forall_mem_singleton.mpr hmarks⟩⟩
  | entity name attributes => exact (h.mention hline.1).describe name hline.2
  | ignored => exact h

/-- **Run.** After all lines all names are words, and all keys are known. -/
theorem isWorded_run (lines : List (List Char)) : (lines.foldl Scan.feed {}).IsWorded :=
  List.foldlRecOn lines Scan.feed ⟨List.forall_mem_nil _, List.forall_mem_nil _⟩
    fun s hs line _ => hs.step (Line.isWorded_ofText s.current.isSome line)

end Scan

/-- What is read of an entity-relationship diagram has words for names. -/
theorem isWorded_read (lines : List (List Char)) : (Entities.read lines).IsWorded := by
  have hrun := Scan.isWorded_run ((lines.filter Source.isContent).map Text.trim)
  unfold Entities.read
  generalize ((lines.filter Source.isContent).map Text.trim).foldl Scan.feed {} = s at hrun ⊢
  refine
    { names := ?_, shapes := ?_, arrows := ?_, keys := ?_, marks := hrun.relationships }
  · exact List.forall_mem_map.mpr (List.forall_mem_map.mpr fun e he => (hrun.entities e he).1)
  · intro n hn
    obtain ⟨e, -, heq⟩ := List.mem_map.mp hn
    cases heq
  · intro e he
    obtain ⟨r, -, heq⟩ := List.mem_map.mp he
    cases heq
  · exact List.forall_mem_map.mpr fun e he => (hrun.entities e he).2

end Entities

/-! ### Mindmaps -/

namespace Mindmap

/-- The topics have words for names and known shapes, and the edges no arrows. -/
structure Scan.IsWorded (s : Scan) : Prop where
  /-- Topics. -/
  nodes : ∀ n ∈ s.nodes, IsRun n.id ∧ n.shape.IsKnown
  /-- Edges. -/
  edges : ∀ e ∈ s.edges, e.arrow = none

/-- **Step.** After one more topic all names are words. -/
theorem Scan.IsWorded.add {s : Scan} (h : s.IsWorded) (depth : Nat) (t : Topic) :
    (s.add depth t).IsWorded where
  nodes := by
    have hmark : ∀ c ∈ "node".toList, isWord c = true := by decide
    have hname : IsRun ("node" ++ toString s.nodes.length) := IsRun.append hmark (isRun_natRepr _)
    exact List.forall_mem_append.mpr ⟨h.nodes, List.forall_mem_singleton.mpr ⟨hname, _, rfl⟩⟩
  edges := by
    unfold Scan.add
    dsimp only
    split
    · exact List.forall_mem_append.mpr ⟨h.edges, List.forall_mem_singleton.mpr rfl⟩
    · exact h.edges

/-- What is read of a mindmap has words for names. -/
theorem isWorded_read (lines : List (List Char)) : (Mindmap.read lines).IsWorded := by
  have hrun := List.foldlRecOn (motive := Scan.IsWorded)
    (lines.filter fun l => Source.isContent l && !isIcon l) Scan.feed (b := {})
    ⟨List.forall_mem_nil _, List.forall_mem_nil _⟩ fun s hs line _ => hs.add _ _
  unfold Mindmap.read
  generalize (lines.filter fun l => Source.isContent l && !isIcon l).foldl Scan.feed {} = s
    at hrun ⊢
  refine
    { names := List.forall_mem_map.mpr fun n hn => (hrun.nodes n hn).1, shapes := ?_, arrows := ?_
      keys := List.forall_mem_nil _, marks := List.forall_mem_nil _ }
  · intro n hn
    obtain ⟨m, hm, heq⟩ := List.mem_map.mp hn
    cases heq
    exact (hrun.nodes n hm).2
  · intro e he a ha
    obtain ⟨f, hf, heq⟩ := List.mem_map.mp he
    cases heq
    rw [hrun.edges e hf] at ha
    cases ha

end Mindmap

/-! ### All dialects -/

/-- Remarks about a diagram do not matter for its names. -/
theorem Diagram.IsWorded.withMetadata {d : Diagram} (h : d.IsWorded) (metadata : Json) :
    Diagram.IsWorded { d with metadata } :=
  ⟨h.names, h.shapes, h.arrows, h.keys, h.marks⟩

/-- What is read behind any header has words for names. -/
theorem Source.isWorded_readBody (header : List Char) (body : List (List Char)) :
    (Source.readBody header body).IsWorded := by
  unfold Source.readBody
  split
  · exact Sequence.isWorded_read body
  · exact Entities.isWorded_read body
  · exact Mindmap.isWorded_read body
  · exact Flowchart.isWorded_read _ body
  · exact (Flowchart.isWorded_read .td body).withMetadata _
  · exact (Flowchart.isWorded_read .td body).withMetadata _

/-- **Main statement.** In a diagram that was read from text names are words and terms have a
meaning. -/
theorem isWorded_of_parse {code : String} {d : Diagram} (h : Diagram.parse code = .ok d) :
    d.IsWorded := by
  obtain ⟨header, body, -, rfl⟩ := Diagram.eq_readBody_of_parse h
  exact Source.isWorded_readBody header body

end Diagrams
