import Diagrams.Proofs.Reading.Mentions
import Diagrams.Proofs.Sequence.Statement

/-!
# What the statements of a sequence diagram mean

**Main statement** (`read_script`): the lines of a script are read as its meaning.

`meaning` tells what a list of statements means without running through it: the participants are the
names in the order of their first mention, each as its last declaration has it, wherever that stands;
the messages are the sent ones in their order, and the edges stand for them.

`known` is the state of the scan that goes with these notions. One statement leads from what is
known of the statements before it to what is known of them together (`step_known`), so a run does
(`foldl_known`), by induction on the last statement.
-/

namespace Diagrams.Sequence

open Text

/-! ### Meaning -/

namespace Statement

/-- The names that a statement mentions. -/
def mentions : Statement → List String
  | declaration d => [d.name.text]
  | message m => [m.source.text, m.target.text]

/-- The declaration, when the statement is one. -/
def declared? : Statement → Option Declaration
  | declaration d => some d
  | message _ => none

/-- The message, when the statement is one. -/
def sent? : Statement → Option WrittenMessage
  | declaration _ => none
  | message m => some m

end Statement

/-- The mentions of a script in their order. -/
def mentions (p : List Statement) : List String := p.flatMap Statement.mentions

/-- The last declaration of a name. -/
def lastDeclaration? (p : List Statement) (id : String) : Option Declaration :=
  (p.filterMap Statement.declared?).reverse.find? fun d => d.name.text = id

/-- The participant of a name: what its last declaration says, or one labelled by the name. -/
def participantOf (p : List Statement) (id : String) : Participant :=
  match lastDeclaration? p id with
  | some d => ⟨id, d.labelText, d.isActor⟩
  | none => ⟨id, id, false⟩

/-- The message that is sent. An arrow with two strokes is dashed, and behind one with two points
the sender does not wait. -/
def WrittenMessage.message (m : WrittenMessage) : Message :=
  { source := m.source.text, target := m.target.text, text := m.text.text
    line := if contains ['-', '-'] m.arrow.token then LinePattern.dashed else LinePattern.solid
    isAsync := contains ['>', '>'] m.arrow.token }

/-- The edge that stands for a message with `n` messages before it. -/
def WrittenMessage.edge (m : WrittenMessage) (n : Nat) : Edge :=
  { id := "e" ++ toString (n + 1), source := m.source.text, target := m.target.text,
    label := m.text.text, arrow := some { line := m.message.line } }

/-- The messages of a script. -/
def sent (p : List Statement) : List WrittenMessage := p.filterMap Statement.sent?

/-- What a script means. -/
def meaning (p : List Statement) : Diagram :=
  let participants := (mentions p).eraseDups.map (participantOf p)
  { kind := Dialect.sequence, direction := none
    nodes := participants.map .participant
    edges := (sent p).zipIdx.map fun x => .edge (x.1.edge x.2)
    participants, messages := (sent p).map WrittenMessage.message }

/-! ### One more statement -/

variable {p : List Statement} {s : Statement}

/-- One more statement is mentioned after the others. -/
theorem mentions_concat (p : List Statement) (s : Statement) :
    mentions (p ++ [s]) = mentions p ++ s.mentions := by
  simp [mentions]

/-- One more statement sends its message after the others. -/
theorem sent_concat (p : List Statement) (s : Statement) :
    sent (p ++ [s]) = sent p ++ s.sent?.toList := by
  cases h : s.sent? <;> simp [sent, h]

/-- A name without a mention is not declared. -/
theorem lastDeclaration?_of_notMem {id : String} (h : id ∉ mentions p) :
    lastDeclaration? p id = none := by
  rw [lastDeclaration?, List.find?_eq_none]
  intro d hd hid
  obtain ⟨s, hs, hsd⟩ := List.mem_filterMap.mp (List.mem_reverse.mp hd)
  cases s with
  | declaration d' =>
    obtain rfl := Option.some.inj hsd
    refine h (List.mem_flatMap.mpr ⟨_, hs, ?_⟩)
    simpa [Statement.mentions, eq_comm] using hid
  | message m => exact nomatch hsd

/-- A declaration replaces what is known of its name, and of no other. -/
theorem participantOf_declaration (p : List Statement) (d : Declaration) (id : String) :
    participantOf (p ++ [.declaration d]) id =
      if id = d.name.text then ⟨d.name.text, d.labelText, d.isActor⟩ else participantOf p id := by
  by_cases hid : id = d.name.text
  · simp [participantOf, lastDeclaration?, Statement.declared?, hid]
  · simp [participantOf, lastDeclaration?, Statement.declared?, hid, Ne.symm hid]

/-- A message declares nobody. -/
theorem participantOf_message (p : List Statement) (m : WrittenMessage) :
    participantOf (p ++ [.message m]) = participantOf p := by
  funext id
  have hnone : List.filterMap Statement.declared? [.message m] = [] := rfl
  rw [participantOf, lastDeclaration?, List.filterMap_append, hnone, List.append_nil]
  rfl

/-- What is known after some statements. -/
def known (p : List Statement) : Scan :=
  { participants := Table.tabulate (mentions p).eraseDups (participantOf p)
    messages := (sent p).map WrittenMessage.message }

/-- The arrow of a message tells how it is sent. -/
theorem message_eq (m : WrittenMessage) : m.message =
    { source := m.source.text, target := m.target.text, text := m.text.text
      line := if m.arrow.dashed then LinePattern.dashed else LinePattern.solid
      isAsync := m.arrow.async } := by
  obtain ⟨source, before, ⟨dashed, async⟩, after, target, beforeColon, afterColon, text⟩ := m
  cases dashed <;> cases async <;> rfl

/-- A participant that a message mentions is noted, after some others. -/
theorem mention_known (p : List Statement) (others : List String) (name : String)
    (messages : List Message) :
    Scan.mention ⟨Table.tabulate (mentions p ++ others).eraseDups (participantOf p), messages⟩ name =
      ⟨Table.tabulate (mentions p ++ (others ++ [name])).eraseDups (participantOf p), messages⟩ := by
  rw [Scan.mention, Table.insertNew_mentioned, List.append_assoc]
  intro hname
  have hp : name ∉ mentions p := fun hm => hname (List.mem_append_left _ hm)
  rw [participantOf, lastDeclaration?_of_notMem hp]

/-- **Step.** One more statement is noted. -/
theorem step_known (p : List Statement) (s : Statement) :
    (known p).step s.line = known (p ++ [s]) := by
  cases s with
  | declaration d =>
    have hinsert := Table.insert_mentioned (mentions p) (participantOf p) d.name.text
      ⟨d.name.text, d.labelText, d.isActor⟩
    have hknown : (known p).participants =
        Table.tabulate (mentions p).eraseDups (participantOf p) := rfl
    simp only [Statement.line, Scan.step, hknown, hinsert]
    simp only [known, mentions_concat, sent_concat, Statement.mentions, Statement.sent?,
      Option.toList_none, List.append_nil, ← participantOf_declaration]
  | message m =>
    have hsource := mention_known p [] m.source.text (known p).messages
    have htarget := mention_known p [m.source.text] m.target.text (known p).messages
    rw [List.append_nil, List.nil_append] at hsource
    have hboth : ((known p).mention m.source.text).mention m.target.text =
        ⟨Table.tabulate (mentions (p ++ [.message m])).eraseDups
          (participantOf (p ++ [.message m])), (known p).messages⟩ := by
      rw [mentions_concat, participantOf_message]
      exact (congrArg (Scan.mention · m.target.text) hsource).trans htarget
    simp only [Statement.line, Scan.step, hboth, ← message_eq]
    simp [known, sent_concat, Statement.sent?]

/-- **Run.** All statements are noted. -/
theorem foldl_known (p : List Statement) :
    (p.map Statement.line).foldl Scan.step {} = known p := by
  induction p using List.reverseRecOn with
  | nil => rfl
  | append_singleton p s ih =>
    rw [List.map_append, List.foldl_append, ih]
    exact step_known p s

/-! ### Scripts -/

/-- **Main statement.** The lines of a script are read as its meaning, whatever white space stands
at their ends and around arrows and colons. -/
theorem read_script (script : List (Padded Statement)) :
    read (script.map (Padded.chars Statement.chars)) = meaning (script.map Padded.inner) := by
  have hcontents := Padded.contents_padded Statement.chars script
    fun l _ => l.inner.isBare_chars
  have hscan : (script.map fun l => l.inner.chars).foldl Scan.feed {} =
      known (script.map Padded.inner) := by
    rw [← foldl_known, List.map_map, List.foldl_map, List.foldl_map]
    simp [Scan.feed, Statement.ofText_chars]
  have hedges : ∀ sent : List WrittenMessage,
      (edgesOf (sent.map WrittenMessage.message)).map Connector.edge =
        sent.zipIdx.map fun x => .edge (x.1.edge x.2) := by
    intro sent
    rw [edgesOf, List.zipIdx_map, List.map_map, List.map_map]
    rfl
  rw [read, hcontents, hscan]
  simp only [known, hedges, Table.values_tabulate, meaning]

/-- An actor that speaks before it is declared, and a participant whose name is a keyword. -/
example :
    (meaning [.message
        { source := ⟨['a', 's'], by decide, by decide⟩, beforeArrow := ⟨[], by decide⟩
          arrow := ⟨true, false⟩, afterArrow := ⟨[], by decide⟩
          target := ⟨['B'], by decide, by decide⟩, beforeColon := ⟨[], by decide⟩
          afterColon := ⟨[' '], by decide⟩, text := ⟨['x'], by decide, by decide, by decide⟩ },
      .declaration
        { isActor := true, keyword := ⟨"ACTOR".toList, by decide⟩
          gap := ⟨⟨[' '], by decide⟩, by decide⟩, name := ⟨['B'], by decide, by decide⟩
          label := none }]).participants = [⟨"as", "as", false⟩, ⟨"B", "B", true⟩] := by
  decide

end Diagrams.Sequence
