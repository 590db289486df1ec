import Diagrams.Proofs.Reading.Plain
import Diagrams.Service.Framework

/-!
# Answers that can be sent

The numbers in an answer are whole, so that every framework can put it into bytes.

* `Json.isFinite_arr`, `Json.isFinite_obj` — containers of values with numbers of finite size.
* `Diagram.isFinite_toJson`, `Service.isFinite_positions`, `Review.isFinite_toJson` — what is
  answered about a diagram and about a text.
* `Service.Framework.close_of_isSendable` — such an answer is given.
-/

namespace Diagrams

/-! ### Values of finite size -/

namespace Json

attribute [simp] IsFinite.null IsFinite.bool IsFinite.int IsFinite.str

/-- A list is finite when its items are. -/
@[simp] theorem isFinite_arr {items : List Json} :
    (arr items).IsFinite ↔ ∀ j ∈ items, j.IsFinite :=
  ⟨fun h => by cases h; assumption, .arr⟩

/-- A record is finite when its fields are. -/
@[simp] theorem isFinite_obj {fields : List (String × Json)} :
    (obj fields).IsFinite ↔ ∀ f ∈ fields, f.2.IsFinite :=
  ⟨fun h => by cases h; assumption, .obj⟩

/-- A plain value has whole numbers only. -/
theorem IsPlain.isFinite {j : Json} (h : j.IsPlain) : j.IsFinite := by
  induction h with
  | null => exact .null
  | bool b => exact .bool b
  | int => exact .int _
  | str s => exact .str s
  | arr _ ih => exact .arr ih
  | obj _ _ ih => exact .obj ih

/-- A value that may be missing is finite. -/
theorem isFinite_ofOption {α : Type} {write : α → Json} {o : Option α}
    (h : ∀ a ∈ o, (write a).IsFinite) : (ofOption write o).IsFinite := by
  cases o with
  | none => exact .null
  | some a => exact h a rfl

/-- A list of texts is finite. -/
@[simp] theorem isFinite_ofTexts (ss : List String) : (ofTexts ss).IsFinite :=
  (isPlain_ofTexts ss).isFinite

/-- A text that may be missing is finite. -/
@[simp] theorem isFinite_ofText? (s : Option String) : (ofText? s).IsFinite :=
  (isPlain_ofText? s).isFinite

end Json

open Json Record

/-! ### Records -/

/-- A record of a node or another element has whole numbers only. -/
theorem Element.isFinite_fields (e : Element) : ∀ f ∈ e.draft.fields, f.2.IsFinite := by
  cases e with
  | node n =>
    have hlevel : (Json.ofOption .int n.level).IsFinite :=
      isFinite_ofOption fun level _ => .int level
    simp [Element.draft, Draft.Element.fields, Node.fields, hlevel]
  | participant p => simp [Element.draft, Draft.Element.fields, Participant.fields]
  | entity e => simp [Element.draft, Draft.Element.fields, Entity.fields, Attribute.fields]

/-- A record of an edge or a relationship has no numbers. -/
theorem Connector.isFinite_fields (c : Connector) : ∀ f ∈ c.draft.fields, f.2.IsFinite := by
  cases c with
  | edge e =>
    have harrow : (Json.ofOption (fun s => .obj s.fields) e.arrow).IsFinite :=
      isFinite_ofOption fun s _ => by simp [ArrowStyle.fields]
    simp [Connector.draft, Draft.Connector.fields, Edge.fields, harrow]
  | relationship r => simp [Connector.draft, Draft.Connector.fields, Relationship.fields]

/-- The record of a diagram has whole numbers only, unless its remarks have others. -/
theorem Diagram.isFinite_toJson {d : Diagram} (h : d.metadata.IsFinite) : d.toJson.IsFinite := by
  have hdirection : d.draft.direction.IsFinite := isFinite_ofOption fun t _ => .str t.name
  have hnodes : ∀ n ∈ d.draft.nodes, ∀ f ∈ n.fields, f.2.IsFinite :=
    List.forall_mem_map.mpr fun e _ => e.isFinite_fields
  have hedges : ∀ e ∈ d.draft.edges, ∀ f ∈ e.fields, f.2.IsFinite :=
    List.forall_mem_map.mpr fun c _ => c.isFinite_fields
  have hgroups : ∀ g ∈ d.draft.groups, ∀ f ∈ g, f.2.IsFinite :=
    List.forall_mem_map.mpr fun g _ => by simp [Group.fields]
  have hparticipants : ∀ p ∈ d.draft.participants, ∀ f ∈ p, f.2.IsFinite :=
    List.forall_mem_map.mpr fun p _ => (Element.participant p).isFinite_fields
  have hmessages : ∀ m ∈ d.draft.messages, ∀ f ∈ m, f.2.IsFinite :=
    List.forall_mem_map.mpr fun m _ => by simp [Message.fields]
  have hentities : ∀ e ∈ d.draft.entities, ∀ f ∈ e, f.2.IsFinite :=
    List.forall_mem_map.mpr fun e _ => (Element.entity e).isFinite_fields
  have hrelationships : ∀ r ∈ d.draft.relationships, ∀ f ∈ r, f.2.IsFinite :=
    List.forall_mem_map.mpr fun r _ => (Connector.relationship r).isFinite_fields
  have hkind : d.draft.kind.IsFinite := .str d.kind.name
  have hremarks : d.draft.metadata.IsFinite := h
  rw [Diagram.toJson, Draft.toJson, isFinite_obj]
  simp only [List.forall_mem_cons, List.not_mem_nil, false_implies, implies_true, and_true,
    isFinite_arr, List.forall_mem_map, isFinite_obj]
  exact ⟨hkind, hdirection, hnodes, hedges, hgroups, hparticipants, hmessages, hentities,
    hrelationships, hremarks, .str _⟩

/-- The record of a diagram that was read from text has whole numbers only. -/
theorem isFinite_toJson_of_parse {code : String} {d : Diagram} (h : Diagram.parse code = .ok d) :
    d.toJson.IsFinite := by
  obtain ⟨header, body, -, rfl⟩ := Diagram.eq_readBody_of_parse h
  exact Diagram.isFinite_toJson (Source.isPlain_metadata header body).isFinite

/-- The record of a review has whole numbers only. -/
theorem Review.isFinite_toJson (r : Review) : r.toJson.IsFinite := by
  unfold Review.toJson
  cases r.kind <;> simp [Finding.toJson]

namespace Service

/-- Boxes have whole numbers only. -/
theorem isFinite_positions (boxes : Table Box) : (positions boxes).IsFinite := by
  rw [positions, isFinite_obj, List.forall_mem_map]
  simp [Box.toJson]

/-! ### Answers -/

/-- What is answered is a text, or a value whose numbers are of finite size. -/
def Response.IsSendable (r : Response) : Prop :=
  (∃ s, r.content = .text s) ∨ ∃ j, r.content = .value j ∧ j.IsFinite

/-- Such an answer is given by every framework. -/
theorem Framework.close_of_isSendable (F : Framework) (route : Route) {r : Response}
    (h : r.IsSendable) : F.close route (.ok r) = r := by
  have hsend : F.canSend r.content = true := by
    rcases h with ⟨s, hs⟩ | ⟨j, hj, hfinite⟩
    · rw [hs]
      exact F.canSend_text s
    · rw [hj]
      exact F.canSend_value hfinite
  exact if_pos hsend

end Service

end Diagrams
