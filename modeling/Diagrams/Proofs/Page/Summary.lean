import Diagrams.Proofs.Conversion
import Diagrams.Proofs.Parts
import Diagrams.Proofs.Reading.Header
import Diagrams.Proofs.Reading.Integrity
import Diagrams.Proofs.Reading.Mentions

/-!
# Messages on the page of a sequence diagram

**Main statement** (`interactions_of_parse`): the page of a sequence diagram that was read from text
lists each message in its order, and for each participant it tells how many messages go out from it
and how many come in. The numbers of either column add up to the number of messages.

* `Sequence.Scan.messages_run` — a message is kept for each line that says one, and for no other.
* `Page.getD_tally` — the counter of a participant tells how many messages mention it.

A counter is there for participants only, so a message between strangers would be lost without a
sign. There is none, because what a message mentions is a participant from then on
(`Sequence.Scan.IsSound.ends`).
-/

namespace Diagrams

/-! ### Messages that are read -/

namespace Sequence

/-- The message of a line that says one. -/
def Line.sent? : Line → Option Message
  | .message source arrow target text =>
    some { source, target, text
           line := if arrow.dashed then LinePattern.dashed else LinePattern.solid
           isAsync := arrow.async }
  | .declaration .. | .ignored => none

/-- **Step.** The message of a line comes after those before it. -/
theorem Scan.messages_step (s : Scan) (l : Line) :
    (s.step l).messages = s.messages ++ l.sent?.toList := by
  cases l <;> simp [Scan.step, Scan.mention, Line.sent?]

/-- **Run.** Every message is kept. -/
theorem Scan.messages_run (lines : List (List Char)) :
    (lines.foldl Scan.feed {}).messages = lines.filterMap fun l => (Line.ofText l).sent? := by
  induction lines using List.reverseRecOn with
  | nil => rfl
  | append_singleton lines l ih =>
    rw [List.foldl_append, List.filterMap_append, ← ih]
    simp only [List.foldl_cons, List.foldl_nil, Scan.feed, Scan.messages_step]
    cases hsent : (Line.ofText l).sent? <;> simp [hsent]

/-- The messages of a diagram are those of the lines that count. -/
theorem messages_read (lines : List (List Char)) :
    (Sequence.read lines).messages =
      ((lines.filter Source.isContent).map Text.trim).filterMap fun l => (Line.ofText l).sent? := by
  rw [← Scan.messages_run]
  rfl

end Sequence

namespace Page

/-! ### Counters -/

variable {names : List String} {name : String}

/-- **Step.** One more mention adds one to the counter of the name. -/
theorem tally_concat (names mentions : List String) (name : String) :
    tally names (mentions ++ [name]) = (tally names mentions).adjust name (· + 1) := by
  simp [tally]

/-- **Run.** The counter of a name tells how often it was mentioned. -/
theorem get?_tally (h : name ∈ names) (mentions : List String) :
    (tally names mentions).get? name = some (mentions.count name) := by
  induction mentions using List.reverseRecOn with
  | nil =>
    have hzero : name ∈ Table.names (names.map fun n => (n, 0)) := by
      simpa [Table.names] using h
    obtain ⟨value, hvalue⟩ := Table.exists_get?_ofList hzero
    obtain ⟨n, -, hn⟩ := List.mem_map.mp (Table.mem_of_get?_ofList hvalue)
    obtain ⟨-, rfl⟩ := Prod.mk.inj hn
    simpa [tally] using hvalue
  | append_singleton mentions other ih =>
    rw [tally_concat, Table.get?_adjust, ih, List.count_append]
    by_cases hother : other = name
    · simp [hother]
    · simp [hother]

/-- The tally of a name is how often it is mentioned. -/
theorem getD_tally (h : name ∈ names) (mentions : List String) :
    (tally names mentions).getD name 0 = mentions.count name := by
  rw [Table.getD, get?_tally h, Option.getD_some]

/-- A name without a counter is passed over. -/
example : tally ["a", "b"] ["b", "c", "b"] = [("a", 0), ("b", 2)] := by decide

/-! ### Sections -/

variable (d : Diagram) (code : String)

/-- The messages stand in a table under a heading of their own, when there are any. -/
theorem under_messageSequence : under "Message Sequence" (d.sequencePage code) =
    if d.messages = [] then []
    else
      [.blank, .table ["#", "From", "To", "Message", "Type"]
        (d.messages.zipIdx.map fun (m, i) => messageRow i m), .blank] := by
  by_cases h : d.messages = [] <;>
    simp [Diagram.sequencePage, messageSection, under, chapter, source, h]

/-- A row of the summary counts the messages from a participant and those to it. -/
theorem under_interactionSummary : under "Interaction Summary" (d.sequencePage code) =
    [.blank, .table ["Participant", "Messages Sent", "Messages Received"]
      (d.parties.map fun p =>
        [cell p.label, toString (d.messages.countP fun m => m.source == p.id),
          toString (d.messages.countP fun m => m.target == p.id)]), .blank] := by
  have hrows : d.parties.map (interactionRow
        (tally (d.parties.map Element.id) (d.messages.map Message.source))
        (tally (d.parties.map Element.id) (d.messages.map Message.target))) =
      d.parties.map fun p =>
        [cell p.label, toString (d.messages.countP fun m => m.source == p.id),
          toString (d.messages.countP fun m => m.target == p.id)] := by
    apply List.map_congr_left
    intro p hp
    have hname := List.mem_map_of_mem (f := Element.id) hp
    rw [interactionRow, getD_tally hname, getD_tally hname]
    simp [List.count, List.countP_map, Function.comp_def]
  rw [← hrows]
  by_cases h : d.messages = [] <;>
    simp [Diagram.sequencePage, messageSection, under, chapter, source, h]

end Page

/-! ### The page of a text -/

/-- Every message goes out from one participant, and comes in at one. -/
theorem Diagram.IsSound.sum_messages {d : Diagram} (hd : d.IsSound)
    (hkind : d.kind = Dialect.sequence) :
    (d.participants.map fun p => d.messages.countP fun m => m.source == p.id).sum =
        d.messages.length ∧
      (d.participants.map fun p => d.messages.countP fun m => m.target == p.id).sum =
        d.messages.length := by
  have hnodup := hd.nodup_names
  have hends := hd.message_ends
  rw [hd.names_of_sequence hkind] at hnodup hends
  have hsent := sum_countP Message.source hnodup fun m hm => (hends m hm).1
  have hreceived := sum_countP Message.target hnodup fun m hm => (hends m hm).2
  rw [List.map_map] at hsent hreceived
  exact ⟨hsent, hreceived⟩

/-- **Main statement.** The messages of a text are those of its lines, in their order. Its page has
a row for each of them, and a row for each participant with the number of messages from it and the
number of messages to it. Either kind of numbers adds up to the number of messages. -/
theorem interactions_of_parse {code : String} {d : Diagram} (h : Diagram.parse code = .ok d)
    (hkind : d.kind = Dialect.sequence) (given : String) :
    (∃ header body, Source.headerAndBody? (Text.lines (Source.stripFences code.toList)) =
        some (header, body) ∧
      d.messages = ((body.filter Source.isContent).map Text.trim).filterMap fun l =>
        (Sequence.Line.ofText l).sent?) ∧
    ∃ page, d.page given = .ok page ∧ d.documentation given = .ok page.text ∧
      Page.under "Message Sequence" page =
        (if d.messages = [] then []
        else
          [.blank, .table ["#", "From", "To", "Message", "Type"]
            (d.messages.zipIdx.map fun (m, i) => Page.messageRow i m), .blank]) ∧
      Page.under "Interaction Summary" page =
        [.blank, .table ["Participant", "Messages Sent", "Messages Received"]
          (d.participants.map fun p =>
            [Page.cell p.label, toString (d.messages.countP fun m => m.source == p.id),
              toString (d.messages.countP fun m => m.target == p.id)]), .blank] ∧
      (d.participants.map fun p => d.messages.countP fun m => m.source == p.id).sum =
        d.messages.length ∧
      (d.participants.map fun p => d.messages.countP fun m => m.target == p.id).sum =
        d.messages.length := by
  have hpage : d.page given =
      .ok (d.sequencePage (String.ofList (Source.stripFences given.toList))) := by
    unfold Diagram.page
    rw [hkind]
  have hdocumentation := congrArg (Except.map Page.text) hpage
  obtain ⟨header, body, hbody, hd⟩ := Diagram.eq_readBody_of_parse h
  have hread := Source.readBody_of_sequence (hd ▸ hkind)
  have hmessages := Sequence.messages_read body
  rw [← hread, ← hd] at hmessages
  have hsound := isSound_of_parse code d h
  have hsummary := Page.under_interactionSummary d
    (String.ofList (Source.stripFences given.toList))
  rw [hsound.parties_eq hkind, List.map_map] at hsummary
  exact ⟨⟨header, body, hbody, hmessages⟩, _, hpage, hdocumentation,
    Page.under_messageSequence d _, hsummary, hsound.sum_messages hkind⟩

/-- Two of the three participants are mentioned only. -/
def talk : List String := ["actor B as Bo", "A ->> B : hi", "Note over B", "B-->>C: yes|no"]

set_option maxRecDepth 100000 in
/-- A talk of two, in which one of them also speaks to itself. -/
theorem interactions_of_talk : ∃ d page,
    Diagram.parse ("\n".intercalate ("sequenceDiagram" :: talk)) = .ok d ∧
      d.page "" = .ok page ∧
      Page.under "Interaction Summary" page =
        [.blank, .table ["Participant", "Messages Sent", "Messages Received"]
          [["Bo", "1", "1"], ["A", "1", "0"], ["C", "0", "1"]], .blank] ∧
      Page.under "Message Sequence" page =
        [.blank, .table ["#", "From", "To", "Message", "Type"]
          [["1", "\x60A\x60", "\x60B\x60", "hi", "Request (async)"],
            ["2", "\x60B\x60", "\x60C\x60", "yes\\|no", "Response (async)"]], .blank] := by
  have hparse : Diagram.parse ("\n".intercalate ("sequenceDiagram" :: talk)) =
      .ok (Sequence.read (talk.map String.toList)) := rfl
  obtain ⟨-, page, hpage, -, hsequence, hsummary, -⟩ := interactions_of_parse hparse rfl ""
  exact ⟨_, page, hparse, hpage, hsummary, hsequence⟩

end Diagrams
