import Diagrams.Proofs.Json.Printed
import Diagrams.Proofs.Reading.Depth
import Diagrams.Proofs.Reading.Record

/-!
# The records of diagrams are plain

**Main statement** (`isPlain_of_parse`): the record of a diagram that was read from text is a plain
value, when the text has fewer than `10 ^ Json.maxDigits` characters. So its written form is read as
the record.

Every field of a record holds text, a word, a truth value or a list of records, apart from the level
of a node and the remarks of a diagram (`Diagram.isPlain_toJson`). A level is at most the length of
the text, and the remarks of a diagram that was read from text hold text.
-/

namespace Diagrams

/-! ### Values in records -/

namespace Json

attribute [simp] IsPlain.null IsPlain.bool IsPlain.str

/-- A value that may be missing is plain. -/
theorem isPlain_ofOption {α : Type} {write : α → Json} {o : Option α}
    (h : ∀ a ∈ o, (write a).IsPlain) : (ofOption write o).IsPlain := by
  cases o with
  | none => exact .null
  | some a => exact h a rfl

/-- A list of plain values is plain. -/
theorem isPlain_map {α : Type} {write : α → Json} {as : List α} (h : ∀ a ∈ as, (write a).IsPlain) :
    (arr (as.map write)).IsPlain :=
  .arr (List.forall_mem_map.mpr h)

/-- A list of texts is plain. -/
@[simp] theorem isPlain_ofTexts (ss : List String) : (ofTexts ss).IsPlain :=
  isPlain_map fun s _ => .str s

/-- A text that may be missing is plain. -/
@[simp] theorem isPlain_ofText? (s : Option String) : (ofText? s).IsPlain :=
  isPlain_ofOption fun s _ => .str s

end Json

open Json Record

/-! ### Records -/

/-- A record is plain when it has the fields of a form and they hold plain values. -/
theorem isPlain_of_names (form : Form) {fields : Fields} (hform : form.names.Nodup)
    (hnames : Table.names fields = form.names) (h : ∀ f ∈ fields, f.2.IsPlain) :
    (Json.obj fields).IsPlain :=
  .obj (hnames ▸ hform) h

/-- The record of a node is plain, unless its level is too long. -/
theorem Node.isPlain_fields {n : Node} {bound : Nat} (h : (Element.node n).IsShallow bound)
    (hbound : bound < 10 ^ maxDigits) : (Json.obj n.fields).IsPlain := by
  have hlevel : (Json.ofOption .int n.level).IsPlain :=
    isPlain_ofOption fun level hl => .int (Nat.lt_of_le_of_lt (h level hl) hbound)
  refine isPlain_of_names nodeForm (by decide) rfl ?_
  simp [Node.fields, hlevel]

/-- The record of an arrow is plain. -/
theorem ArrowStyle.isPlain_fields (s : ArrowStyle) : (Json.obj s.fields).IsPlain := by
  refine isPlain_of_names arrowForm (by decide) rfl ?_
  simp [ArrowStyle.fields]

/-- The record of an edge is plain. -/
theorem Edge.isPlain_fields (e : Edge) : (Json.obj e.fields).IsPlain := by
  have harrow : (Json.ofOption (fun s => .obj s.fields) e.arrow).IsPlain :=
    isPlain_ofOption fun s _ => ArrowStyle.isPlain_fields s
  refine isPlain_of_names edgeForm (by decide) rfl ?_
  simp [Edge.fields, harrow]

/-- The record of a group is plain. -/
theorem Group.isPlain_fields (g : Group) : (Json.obj g.fields).IsPlain := by
  refine isPlain_of_names groupForm (by decide) rfl ?_
  simp [Group.fields]

/-- The record of an attribute is plain. -/
theorem Attribute.isPlain_fields (a : Attribute) : (Json.obj a.fields).IsPlain := by
  refine isPlain_of_names attributeForm (by decide) rfl ?_
  simp [Attribute.fields]

/-- The record of an entity is plain. -/
theorem Entity.isPlain_fields (e : Entity) : (Json.obj e.fields).IsPlain := by
  have hattributes : (Json.arr (e.attributes.map fun a => .obj a.fields)).IsPlain :=
    isPlain_map fun a _ => a.isPlain_fields
  refine isPlain_of_names entityForm (by decide) rfl ?_
  simp [Entity.fields, hattributes]

/-- The record of a relationship is plain. -/
theorem Relationship.isPlain_fields (r : Relationship) : (Json.obj r.fields).IsPlain := by
  refine isPlain_of_names relationshipForm (by decide) rfl ?_
  simp [Relationship.fields]

/-- The record of a participant is plain. -/
theorem Participant.isPlain_fields (p : Participant) : (Json.obj p.fields).IsPlain := by
  refine isPlain_of_names participantForm (by decide) rfl ?_
  simp [Participant.fields]

/-- The record of a message is plain. -/
theorem Message.isPlain_fields (m : Message) : (Json.obj m.fields).IsPlain := by
  refine isPlain_of_names messageForm (by decide) rfl ?_
  simp [Message.fields]

/-- The record of an element is plain, when its level has not too many digits. -/
theorem Element.isPlain_fields {e : Element} {bound : Nat} (h : e.IsShallow bound)
    (hbound : bound < 10 ^ maxDigits) : (Json.obj e.draft.fields).IsPlain := by
  cases e with
  | node n => exact n.isPlain_fields h hbound
  | participant p => exact p.isPlain_fields
  | entity e => exact e.isPlain_fields

/-- The record of a connector is plain. -/
theorem Connector.isPlain_fields (c : Connector) : (Json.obj c.draft.fields).IsPlain := by
  cases c with
  | edge e => exact e.isPlain_fields
  | relationship r => exact r.isPlain_fields

/-- The record of a diagram is plain when its remarks are and no level is too long. -/
theorem Diagram.isPlain_toJson {d : Diagram} {bound : Nat}
    (hlevels : ∀ n ∈ d.nodes, n.IsShallow bound)
    (hbound : bound < 10 ^ maxDigits) (hmetadata : d.metadata.IsPlain) : d.toJson.IsPlain := by
  have hnodes : (Json.arr (d.draft.nodes.map fun n => .obj n.fields)).IsPlain := by
    refine isPlain_map (List.forall_mem_map.mpr fun n hn => ?_)
    exact n.isPlain_fields (hlevels n hn) hbound
  have hedges : (Json.arr (d.draft.edges.map fun e => .obj e.fields)).IsPlain :=
    isPlain_map (List.forall_mem_map.mpr fun e _ => e.isPlain_fields)
  have hgroups : (Json.arr (d.draft.groups.map .obj)).IsPlain :=
    isPlain_map (List.forall_mem_map.mpr fun g _ => g.isPlain_fields)
  have hparticipants : (Json.arr (d.draft.participants.map .obj)).IsPlain :=
    isPlain_map (List.forall_mem_map.mpr fun p _ => p.isPlain_fields)
  have hmessages : (Json.arr (d.draft.messages.map .obj)).IsPlain :=
    isPlain_map (List.forall_mem_map.mpr fun m _ => m.isPlain_fields)
  have hentities : (Json.arr (d.draft.entities.map .obj)).IsPlain :=
    isPlain_map (List.forall_mem_map.mpr fun e _ => e.isPlain_fields)
  have hrelationships : (Json.arr (d.draft.relationships.map .obj)).IsPlain :=
    isPlain_map (List.forall_mem_map.mpr fun r _ => r.isPlain_fields)
  have hkind : d.draft.kind.IsPlain := .str d.kind.name
  have hdirection : d.draft.direction.IsPlain := isPlain_ofOption fun t _ => .str t.name
  have hremarks : d.draft.metadata.IsPlain := hmetadata
  refine .obj (by simp [Table.names]) ?_
  simp [hkind, hdirection, hnodes, hedges, hgroups, hparticipants, hmessages, hentities,
    hrelationships, hremarks]

/-! ### Diagrams of texts -/

/-- The remarks of a diagram that was read from text are plain. -/
theorem Source.isPlain_metadata (header : List Char) (body : List (List Char)) :
    (Source.readBody header body).metadata.IsPlain := by
  have hempty : (Json.obj []).IsPlain :=
    .obj List.nodup_nil fun _ hf => absurd hf List.not_mem_nil
  have hdeclared (word : String) : (readBody.declaredAs word).IsPlain := by
    refine .obj (List.nodup_singleton _) ?_
    simp
  unfold Source.readBody
  split
  · exact hempty
  · exact hempty
  · exact hempty
  · exact hempty
  · exact hdeclared _
  · exact hdeclared _

/-- The record of a diagram that was read from text is plain, unless a level is too long. -/
theorem isPlain_of_parse {code : String} {d : Diagram} (h : Diagram.parse code = .ok d)
    (hcode : code.toList.length < 10 ^ maxDigits) : d.toJson.IsPlain := by
  obtain ⟨header, body, -, rfl⟩ := Diagram.eq_readBody_of_parse h
  exact Diagram.isPlain_toJson (isShallow_of_parse h) hcode (Source.isPlain_metadata header body)

end Diagrams
