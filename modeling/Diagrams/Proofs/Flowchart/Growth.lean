import Diagrams.Proofs.Flowchart.Statement
import Diagrams.Proofs.Reading.Integrity
import Diagrams.Proofs.Reading.Mentions

/-!
# How flowcharts grow

**Main statement** (`grows_run`): whatever the lines are, one more line makes what is known of a
flowchart grow (`Scan.Grows`), and every node is what the last shape written for it says, or a
rectangle labelled by its name when none was written.

Nothing is known about the lines. All that counts of a line are the nodes that it mentions
(`Line.mentions`), with the shapes written for them.

* `writtenNode?` — the node of the last shape that is written for a name.
* `Scan.get?_foldl_declare`, `Scan.names_foldl_declare` — the nodes after some mentions. A mention
  without a shape changes no node that is known.
* `IsRefused` — the lines that say nothing, told by their text: those that match no construct, and
  those that start like a group or a connection and name no group or no target. There are no others
  (`ofText_eq_ignored_iff`).
* `Scan.grows_step` — one more line. The open group is sound afterwards because it was before, which
  is why the state has to be one that is reached.
-/

namespace Diagrams.Flowchart

open Text

/-! ### Mentions -/

/-- The nodes that a line mentions, with the shapes written for them. -/
def Line.mentions : Line → List Target
  | connection source _ _ target => [source, target]
  | declaration id fragment => [⟨id, some fragment⟩]
  | _ => []

/-- The node of the last shape that is written for a name. -/
def writtenNode? (ts : List Target) (id : String) : Option Node :=
  (ts.filterMap fun t =>
    if t.id = id then t.fragment.map fun f => .shaped id (.ofFragment f) else none).getLast?

/-- The node of a name that is mentioned, when no shape is written for it. -/
def plainNode? (ts : List Target) (id : String) : Option Node :=
  if id ∈ ts.map Target.id then some (.plain id) else none

/-- Shapes that are written later come first. -/
theorem writtenNode?_append (ts ts' : List Target) (id : String) :
    writtenNode? (ts ++ ts') id = (writtenNode? ts' id).or (writtenNode? ts id) := by
  rw [writtenNode?, List.filterMap_append, List.getLast?_append, writtenNode?, writtenNode?]

/-- Of two lists of targets the first one that names a node without a shape counts. -/
theorem plainNode?_append (ts ts' : List Target) (id : String) :
    plainNode? (ts ++ ts') id = (plainNode? ts id).or (plainNode? ts' id) := by
  unfold plainNode?
  rw [List.map_append]
  by_cases hid : id ∈ ts.map Target.id
  · rw [if_pos hid, if_pos (List.mem_append_left _ hid), Option.some_or]
  · have hmem : id ∈ ts.map Target.id ++ ts'.map Target.id ↔ id ∈ ts'.map Target.id :=
      List.mem_append.trans (or_iff_right hid)
    simp only [if_neg hid, hmem, Option.none_or]

namespace Scan

variable {s : Scan}

/-! ### Nodes after mentions -/

/-- A shape that is written counts; without one a known node stays, and a new one is a rectangle. -/
theorem get?_declare (s : Scan) (t : Target) (id : String) :
    (s.declare t).nodes.get? id =
      (writtenNode? [t] id).or ((s.nodes.get? id).or (plainNode? [t] id)) := by
  obtain ⟨name, fragment⟩ := t
  by_cases hid : name = id
  · subst hid
    cases fragment <;>
      simp [declare, writtenNode?, plainNode?, Table.get?_insert, Table.get?_insertNew]
  · cases fragment <;>
      simp [declare, writtenNode?, plainNode?, hid, Ne.symm hid, Table.get?_insert,
        Table.get?_insertNew]

/-- After some mentions the last of their shapes counts; without any a known node stays, and one
that is mentioned is a rectangle. -/
theorem get?_foldl_declare (s : Scan) (ts : List Target) (id : String) :
    (ts.foldl declare s).nodes.get? id =
      (writtenNode? ts id).or ((s.nodes.get? id).or (plainNode? ts id)) := by
  induction ts using List.reverseRecOn with
  | nil => simp [writtenNode?, plainNode?]
  | append_singleton ts t ih =>
    rw [List.foldl_append, List.foldl_cons, List.foldl_nil, get?_declare, ih,
      writtenNode?_append, plainNode?_append, Option.or_assoc, Option.or_assoc, Option.or_assoc]

/-- The names that are mentioned and not known, each once, in the order of the first mentions. -/
def newNames (s : Scan) (ts : List Target) : List String :=
  ((ts.map Target.id).filter fun id => id ∉ s.nodes.names).eraseDups

/-- New names come behind the known ones. -/
theorem names_foldl_declare (s : Scan) (ts : List Target) :
    (ts.foldl declare s).nodes.names = s.nodes.names ++ s.newNames ts := by
  induction ts using List.reverseRecOn with
  | nil => simp [newNames]
  | append_singleton ts t ih =>
    have hdeclare : ∀ s : Scan, (s.declare t).nodes.names =
        if t.id ∈ s.nodes.names then s.nodes.names else s.nodes.names ++ [t.id] := by
      intro s
      unfold declare
      split
      · exact Table.names_insert ..
      · exact Table.names_insertNew ..
    rw [List.foldl_append, List.foldl_cons, List.foldl_nil, hdeclare, ih]
    by_cases hknown : t.id ∈ s.nodes.names
    · have hsame : s.newNames (ts ++ [t]) = s.newNames ts := by simp [newNames, hknown]
      rw [if_pos (List.mem_append_left _ hknown), hsame]
    · have hconcat : s.newNames (ts ++ [t]) =
          if t.id ∈ s.newNames ts then s.newNames ts else s.newNames ts ++ [t.id] := by
        have hfilter : ((ts ++ [t]).map Target.id).filter (fun id => id ∉ s.nodes.names) =
            (ts.map Target.id).filter (fun id => id ∉ s.nodes.names) ++ [t.id] := by
          simp [hknown]
        rw [newNames, hfilter, eraseDups_concat]
        rfl
      rw [hconcat]
      by_cases hnew : t.id ∈ s.newNames ts
      · rw [if_pos (List.mem_append_right _ hnew), if_pos hnew]
      · rw [if_neg (mt List.mem_append.mp (not_or.mpr ⟨hknown, hnew⟩)), if_neg hnew,
          List.append_assoc]

/-- Of all that a line says, its mentions alone change the nodes. -/
theorem nodes_step (s : Scan) (l : Line) :
    (s.step l).nodes = (l.mentions.foldl declare s).nodes := by
  cases l with
  | groupEnd =>
    simp only [step]
    split <;> rfl
  | _ => rfl

end Scan

/-! ### Lines that say nothing -/

/-- The line says nothing. -/
inductive IsRefused (cs : List Char) : Prop where
  /-- It starts like a group, and no name of a group follows. -/
  | nameless (rest : List Char) (hkeyword : afterGroupKeyword? cs = some rest)
    (hname : groupHeader? rest = none)
  /-- It is a connection, and its target does not start with a word. -/
  | targetless (id : List Char) (fragment : Option (List Char)) (arrow : Arrow)
    (label text : List Char) (hkeyword : afterGroupKeyword? cs = none)
    (hconnection : connection? cs = some (id, fragment, arrow, label, text))
    (hword : StopsName (bareTarget text))
  /-- It is neither a group's start or end nor a connection nor the declaration of a node. -/
  | unmatched (hkeyword : afterGroupKeyword? cs = none) (hend : cs ≠ ['e', 'n', 'd'])
    (hconnection : connection? cs = none) (hdeclaration : declaration? cs = none)

/-- A target is a word, perhaps with more behind it. -/
theorem Target.ofText?_eq_none_iff {text : List Char} :
    Target.ofText? text = none ↔ StopsName (bareTarget text) := by
  rw [← name?_eq_none_iff, Target.ofText?]
  cases name? (bareTarget text) <;> simp

/-- Exactly these lines are ignored. -/
theorem ofText_eq_ignored_iff {cs : List Char} : Line.ofText cs = .ignored ↔ IsRefused cs := by
  constructor
  · intro h
    unfold Line.ofText at h
    split at h
    · rename_i rest hkeyword
      split at h
      · cases h
      · rename_i hname
        exact .nameless rest hkeyword hname
    · rename_i hkeyword
      split at h
      · cases h
      rename_i hend
      split at h
      · rename_i id fragment arrow label text hconnection
        split at h
        · cases h
        · rename_i htarget
          exact .targetless id fragment arrow label text hkeyword hconnection
            (Target.ofText?_eq_none_iff.mp htarget)
      · rename_i hconnection
        split at h
        · cases h
        · rename_i hdeclaration
          exact .unmatched hkeyword hend hconnection hdeclaration
  · intro h
    cases h with
    | nameless rest hkeyword hname => simp only [Line.ofText, hkeyword, hname]
    | targetless id fragment arrow label text hkeyword hconnection hword =>
      simp only [Line.ofText, hkeyword, if_neg (ne_end_of_connection? hconnection), hconnection,
        Target.ofText?_eq_none_iff.mpr hword]
    | unmatched hkeyword hend hconnection hdeclaration =>
      simp only [Line.ofText, hkeyword, if_neg hend, hconnection, hdeclaration]

/-! ### One more line -/

namespace Scan

variable {s : Scan}

/-- How what is known grows when one more line is read. -/
structure Grows (s : Scan) (line : List Char) (s' : Scan) : Prop where
  /-- Known names keep their places, and names that the line is the first to mention come behind
  them. -/
  names : s'.nodes.names = s.nodes.names ++ s.newNames (Line.ofText line).mentions
  /-- No name stands for two nodes. -/
  nodup : s'.nodes.names.Nodup
  /-- A known node is replaced by the last shape that the line writes for its name, if any. -/
  known : ∀ id ∈ s.nodes.names, s'.nodes.get? id =
    (writtenNode? (Line.ofText line).mentions id).or (s.nodes.get? id)
  /-- The edges stay, and at most one comes behind them. -/
  edges : ∃ added, s'.edges = s.edges ++ added ∧ added.length ≤ 1
  /-- The groups that have ended stay, and at most the open one comes behind them. -/
  groups : ∃ closed, s'.groups = s.groups ++ closed ∧ closed <+: s.current.toList
  /-- The open group holds known names, none of them twice. -/
  current : ∀ g ∈ s'.current, g.IsSound s'.nodes.names
  /-- A line that says nothing changes nothing. -/
  refused : IsRefused line → s' = s

/-- A mention leaves the groups as they are. -/
theorem groups_declare (s : Scan) (t : Target) : (s.declare t).groups = s.groups := by
  unfold declare
  split <;> rfl

/-- One line adds one edge at most, at the end. -/
theorem edges_step (s : Scan) (l : Line) :
    ∃ added, (s.step l).edges = s.edges ++ added ∧ added.length ≤ 1 := by
  cases l with
  | groupEnd =>
    refine ⟨[], ?_, by simp⟩
    simp only [step, List.append_nil]
    split <;> rfl
  | connection source arrow label target =>
    simp only [step, edges_join, edges_declare]
    exact ⟨_, rfl, Nat.le_of_eq List.length_singleton⟩
  | _ => exact ⟨[], by simp [step], by simp⟩

/-- One line closes the open group at most. -/
theorem groups_step (s : Scan) (l : Line) :
    ∃ closed, (s.step l).groups = s.groups ++ closed ∧ closed <+: s.current.toList := by
  have hnone : ∀ s' : Scan, s'.groups = s.groups →
      ∃ closed, s'.groups = s.groups ++ closed ∧ closed <+: s.current.toList :=
    fun s' h => ⟨[], by rw [h, List.append_nil], List.nil_prefix⟩
  cases l with
  | groupStart id label => exact hnone _ rfl
  | groupEnd =>
    simp only [step]
    split
    · rename_i g hg
      have hopen : s.current.toList = [g] := congrArg Option.toList hg
      exact ⟨[g], rfl, hopen ▸ List.prefix_rfl⟩
    · exact hnone _ rfl
  | connection source arrow label target =>
    exact hnone _ ((groups_declare _ target).trans (groups_declare s source))
  | declaration id fragment => exact hnone _ (groups_declare s ⟨id, some fragment⟩)
  | ignored => exact hnone _ rfl

/-- One more line makes what is known grow. -/
theorem grows_step (h : s.IsSound) (line : List Char) : s.Grows line (s.feed line) := by
  have hnodes : (s.feed line).nodes = _ := nodes_step s (.ofText line)
  exact
    { names := by rw [hnodes, names_foldl_declare]
      nodup := (h.step (.ofText line)).nodup
      known := by
        intro id hid
        obtain ⟨n, hn⟩ := Table.exists_get?_iff.mpr hid
        rw [hnodes, get?_foldl_declare, hn, Option.some_or]
      edges := edges_step s _
      groups := groups_step s _
      current := (h.step (.ofText line)).current
      refused := by
        intro hrefused
        rw [feed, ofText_eq_ignored_iff.mpr hrefused]
        rfl }

end Scan

/-! ### Runs -/

/-- The nodes that some lines mention, with the shapes written for them. -/
def mentionsOf (lines : List (List Char)) : List Target :=
  lines.flatMap fun line => (Line.ofText line).mentions

/-- After some lines the last shape that one of them writes for a name counts; without any a name
that is mentioned is a rectangle. -/
theorem get?_run (lines : List (List Char)) (id : String) :
    (lines.foldl Scan.feed {}).nodes.get? id =
      (writtenNode? (mentionsOf lines) id).or (plainNode? (mentionsOf lines) id) := by
  induction lines using List.reverseRecOn with
  | nil => rfl
  | append_singleton lines line ih =>
    have hmentions : mentionsOf (lines ++ [line]) =
        mentionsOf lines ++ (Line.ofText line).mentions := by
      simp [mentionsOf]
    rw [List.foldl_append, List.foldl_cons, List.foldl_nil, Scan.feed, Scan.nodes_step,
      Scan.get?_foldl_declare, ih, hmentions, writtenNode?_append, plainNode?_append,
      Option.or_assoc, Option.or_assoc]

/-- **Main statement.** After any lines every node is what the last shape written for it says, and
one more line makes what is known grow. -/
theorem grows_run (lines : List (List Char)) (line : List Char) :
    (∀ id ∈ (lines.foldl Scan.feed {}).nodes.names,
      (lines.foldl Scan.feed {}).nodes.get? id =
        some ((writtenNode? (mentionsOf lines) id).getD (.plain id))) ∧
      (lines.foldl Scan.feed {}).Grows line ((lines.foldl Scan.feed {}).feed line) := by
  refine ⟨fun id hid => ?_, Scan.grows_step (Scan.isSound_run lines) line⟩
  obtain ⟨n, hn⟩ := Table.exists_get?_iff.mpr hid
  rw [get?_run] at hn ⊢
  cases hwritten : writtenNode? (mentionsOf lines) id with
  | some written => rfl
  | none =>
    -- the name is known, so some line mentions it
    rw [hwritten, Option.none_or, plainNode?] at hn
    rw [Option.none_or, plainNode?]
    split at hn
    · rename_i hmentioned
      exact if_pos hmentioned
    · cases hn

/-- A connection of a node with itself may write two shapes, of which the second counts. A connection
to no word changes nothing then. -/
theorem grows_run_self :
    let s := ["A[x] --> A(y)".toList].foldl Scan.feed {}
    s.nodes.get? "A" = some (.shaped "A" (.ofFragment "(y)".toList)) ∧
      s.feed "A --> !".toList = s := by
  obtain ⟨hnodes, hgrows⟩ := grows_run ["A[x] --> A(y)".toList] "A --> !".toList
  have hrefused : IsRefused "A --> !".toList := by
    rw [← ofText_eq_ignored_iff]
    decide
  exact ⟨(hnodes "A" (by decide)).trans (by decide), hgrows.refused hrefused⟩

end Diagrams.Flowchart
