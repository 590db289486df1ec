import Diagrams.Entities.Scan
import Diagrams.Proofs.Entities.Statement
import Diagrams.Proofs.Reading.Mentions

/-!
# What the items of an entity-relationship diagram mean

**Main statement** (`read_items`): the lines of a list of items are read as its meaning.

An item is an entity with attributes, described in a block of lines or on one line, or a
relationship. `meaning` tells what a list of items means without running through it: the entities are
the names in the order of their first mention, each with the attributes of all its descriptions, and
the relationships are numbered in their order.

The lines of a block change the scan as one line with the same attributes does (`foldl_item`), and no
block is open between two items. `known` is the state of the scan that goes with the meaning: one
item leads from what is known of the items before it to what is known of them together
(`step_known`), so a run does (`foldl_known`), by induction on the last item.
-/

namespace Diagrams.Entities

open Text

/-! ### Items -/

/-- An entity with attributes. -/
inductive Description where
  /-- The attributes stand on lines of their own. -/
  | block (opening : Padded (Name × Space)) (rows : List (Padded WrittenAttribute))
      (closing : Padded Unit)
  /-- The attributes stand on the line of the entity. -/
  | shorthand (s : Padded Shorthand)

namespace Description

/-- The name of the entity. -/
def name : Description → Name
  | block opening _ _ => opening.inner.1
  | shorthand s => s.inner.name

/-- The attributes. -/
def attributes : Description → List Attribute
  | block _ rows _ => rows.map fun r => r.inner.meaning
  | shorthand s => s.inner.attributes.map ShortAttribute.meaning

/-- What stands on the lines. -/
def statements : Description → List (Padded Statement)
  | block opening rows closing =>
    opening.map (fun x => .opening x.1 x.2) ::
      (rows.map (Padded.map .row) ++ [closing.map fun _ => .closing])
  | shorthand s => [s.map .shorthand]

end Description

/-- An item of an entity-relationship diagram. -/
inductive Item where
  /-- An entity with attributes. -/
  | entity (d : Description)
  /-- A relationship. -/
  | relationship (r : Padded WrittenRelationship)

namespace Item

/-- What stands on the lines. -/
def statements : Item → List (Padded Statement)
  | entity d => d.statements
  | relationship r => [r.map .relationship]

/-- The names that the item mentions. -/
def mentions : Item → List String
  | entity d => [d.name.text]
  | relationship r => [r.inner.source.text, r.inner.target.text]

/-- The description, when the item is one. -/
def described? : Item → Option Description
  | entity d => some d
  | relationship _ => none

/-- The relationship, when the item is one. -/
def related? : Item → Option WrittenRelationship
  | entity _ => none
  | relationship r => some r.inner

/-- What the item says, on however many lines. -/
def line : Item → Line
  | entity d => .entity d.name.text d.attributes
  | relationship r => .relationship (r.inner.meaning "")

end Item

/-! ### Meaning -/

/-- The mentions in their order. -/
def mentions (p : List Item) : List String := p.flatMap Item.mentions

/-- The attributes of a name in all its descriptions. -/
def attributesOf (p : List Item) (id : String) : List Attribute :=
  ((p.filterMap Item.described?).filter fun d => d.name.text = id).flatMap Description.attributes

/-- The entity of a name. -/
def entityOf (p : List Item) (id : String) : Entity := ⟨id, id, attributesOf p id⟩

/-- The relationships in their order, with their names. -/
def relationships (p : List Item) : List Relationship :=
  (p.filterMap Item.related?).zipIdx.map fun x => x.1.meaning ("r" ++ toString (x.2 + 1))

/-- What a list of items means. -/
def meaning (p : List Item) : Diagram :=
  let entities := (mentions p).eraseDups.map (entityOf p)
  { kind := Dialect.entityRelationship, direction := none
    nodes := entities.map .entity, edges := (relationships p).map .relationship
    entities, relationships := relationships p }

/-! ### The lines of an item -/

/-- An entity may be described in two parts. -/
theorem describe_describe (s : Scan) (name : String) (as bs : List Attribute) :
    (s.describe name as).describe name bs = s.describe name (as ++ bs) := by
  simp [Scan.describe, Table.adjust_adjust]

/-- A description without attributes adds nothing. -/
theorem describe_nil (s : Scan) (name : String) : s.describe name [] = s := by
  have hsame : ∀ e : Entity, ({ e with attributes := e.attributes ++ [] } : Entity) = e := by
    simp
  rw [Scan.describe, Table.adjust_eq_self _ _ hsame]

/-- A line is taken for what is written on it in its place. -/
theorem feed_chars {s : Scan} {t : Statement} (h : s.current.isSome = t.isInside) :
    s.feed t.chars = s.step t.line := by
  rw [Scan.feed, h, Statement.ofText_chars]

/-- The lines of a block give its attributes to the entity. -/
theorem foldl_rows (rows : List WrittenAttribute) {s : Scan} {name : String}
    (h : s.current = some name) :
    (rows.map fun a => (Statement.row a).chars).foldl Scan.feed s =
      s.describe name (rows.map WrittenAttribute.meaning) := by
  induction rows generalizing s with
  | nil => exact (describe_nil s name).symm
  | cons a rows ih =>
    have hrow : s.feed (Statement.row a).chars = s.describe name [a.meaning] := by
      rw [feed_chars (by rw [h]; rfl), Statement.line, Scan.step, h]
    have hopen : (s.describe name [a.meaning]).current = some name := h
    rw [List.map_cons, List.foldl_cons, hrow, ih hopen, describe_describe, List.map_cons,
      List.singleton_append]

/-- The lines of a block do what one line with the same attributes does, when no block is open. -/
theorem foldl_block (opening : Padded (Name × Space)) (rows : List (Padded WrittenAttribute))
    (closing : Padded Unit) {s : Scan} (h : s.current = none) :
    ((Description.block opening rows closing).statements.map fun t => t.inner.chars).foldl
        Scan.feed s =
      s.step (.entity opening.inner.1.text (rows.map fun r => r.inner.meaning)) := by
  have hopening : s.feed (Statement.opening opening.inner.1 opening.inner.2).chars =
      { s.mention opening.inner.1.text with current := some opening.inner.1.text } :=
    feed_chars (by rw [h]; rfl)
  have hrows := foldl_rows (rows.map fun r => r.inner)
    (s := { s.mention opening.inner.1.text with current := some opening.inner.1.text }) rfl
  have hclosing : ∀ t : Scan, t.current.isSome = true →
      t.feed Statement.closing.chars = { t with current := none } := fun _ ht => feed_chars ht
  rw [List.map_map, List.map_map] at hrows
  simp only [Description.statements, List.map_cons, List.map_append, List.map_map, List.map_nil,
    List.foldl_cons, List.foldl_append, List.foldl_nil, Padded.map, Function.comp_def] at hrows ⊢
  rw [hopening, hrows, hclosing _ rfl]
  simp [Scan.step, Scan.describe, Scan.mention, h]

/-- The lines of an item do what the item says, when no block is open. -/
theorem foldl_item (i : Item) {s : Scan} (h : s.current = none) :
    (i.statements.map fun t => t.inner.chars).foldl Scan.feed s = s.step i.line := by
  cases i with
  | entity d =>
    cases d with
    | block opening rows closing => exact foldl_block opening rows closing h
    | shorthand r => exact feed_chars (t := .shorthand r.inner) (by rw [h]; rfl)
  | relationship r => exact feed_chars (t := .relationship r.inner) (by rw [h]; rfl)

/-! ### One more item -/

variable {p : List Item} {i : Item}

/-- One more item is mentioned after the others. -/
theorem mentions_concat (p : List Item) (i : Item) : mentions (p ++ [i]) = mentions p ++ i.mentions := by
  simp [mentions]

/-- A name without a mention has no attributes. -/
theorem attributesOf_of_notMem {id : String} (h : id ∉ mentions p) : attributesOf p id = [] := by
  rw [attributesOf, List.flatMap_eq_nil_iff]
  intro d hd
  obtain ⟨hdescribed, hid⟩ := List.mem_filter.mp hd
  obtain ⟨i, hi, hid'⟩ := List.mem_filterMap.mp hdescribed
  cases i with
  | entity d' =>
    obtain rfl := Option.some.inj hid'
    refine absurd (List.mem_flatMap.mpr ⟨_, hi, ?_⟩) h
    simpa [Item.mentions, eq_comm] using hid
  | relationship r => exact nomatch hid'

/-- A description adds attributes to its entity, and to no other. -/
theorem entityOf_entity (p : List Item) (d : Description) (id : String) :
    entityOf (p ++ [.entity d]) id =
      if id = d.name.text then
        { entityOf p id with attributes := (entityOf p id).attributes ++ d.attributes }
      else entityOf p id := by
  by_cases hid : id = d.name.text
  · simp [entityOf, attributesOf, Item.described?, hid]
  · simp [entityOf, attributesOf, Item.described?, hid, Ne.symm hid]

/-- A relationship adds no attributes. -/
theorem entityOf_relationship (p : List Item) (r : Padded WrittenRelationship) :
    entityOf (p ++ [.relationship r]) = entityOf p := by
  funext id
  simp [entityOf, attributesOf, Item.described?]

/-- The description of an entity adds no relationship. -/
theorem relationships_entity (p : List Item) (d : Description) :
    relationships (p ++ [.entity d]) = relationships p := by
  have hnone : List.filterMap Item.related? [.entity d] = [] := rfl
  rw [relationships, List.filterMap_append, hnone, List.append_nil, relationships]

/-- The next relationship gets the next number. -/
theorem relationships_relationship (p : List Item) (r : Padded WrittenRelationship) :
    relationships (p ++ [.relationship r]) =
      relationships p ++ [r.inner.meaning ("r" ++ toString ((relationships p).length + 1))] := by
  simp [relationships, Item.related?, List.zipIdx_append]

/-- What is known after some items. -/
def known (p : List Item) : Scan :=
  { entities := Table.tabulate (mentions p).eraseDups (entityOf p)
    relationships := relationships p }

/-- An entity that an item mentions is noted, after some others. -/
theorem mention_known (p : List Item) (others : List String) (name : String) :
    Scan.mention { known p with
        entities := Table.tabulate (mentions p ++ others).eraseDups (entityOf p) } name =
      { known p with
        entities := Table.tabulate (mentions p ++ (others ++ [name])).eraseDups (entityOf p) } := by
  rw [Scan.mention, Table.insertNew_mentioned, List.append_assoc]
  intro hname
  have hp : name ∉ mentions p := fun hm => hname (List.mem_append_left _ hm)
  rw [entityOf, attributesOf_of_notMem hp]

/-- **Step.** One more item is noted. -/
theorem step_known (p : List Item) (i : Item) : (known p).step i.line = known (p ++ [i]) := by
  cases i with
  | entity d =>
    have hmention := mention_known p [] d.name.text
    rw [List.append_nil, List.nil_append] at hmention
    have hmentioned : (known p).mention d.name.text =
        { known p with
          entities := Table.tabulate (mentions p ++ [d.name.text]).eraseDups (entityOf p) } :=
      hmention
    simp only [Item.line, Scan.step, hmentioned, Scan.describe, Table.adjust_mentioned,
      ← entityOf_entity]
    simp only [known, mentions_concat, Item.mentions, relationships_entity]
  | relationship r =>
    have hsource := mention_known p [] r.inner.source.text
    have htarget := mention_known p [r.inner.source.text] r.inner.target.text
    rw [List.append_nil, List.nil_append] at hsource
    have hboth : ((known p).mention r.inner.source.text).mention r.inner.target.text =
        { known p with
          entities := Table.tabulate (mentions (p ++ [.relationship r])).eraseDups
            (entityOf (p ++ [.relationship r])) } := by
      rw [mentions_concat, entityOf_relationship]
      exact (congrArg (Scan.mention · r.inner.target.text) hsource).trans htarget
    have hstep : (known p).step (Item.relationship r).line =
        { ((known p).mention r.inner.source.text).mention r.inner.target.text with
          relationships := relationships p ++
            [r.inner.meaning ("r" ++ toString ((relationships p).length + 1))] } := rfl
    rw [hstep, hboth, ← relationships_relationship, known, known]

/-- **Run.** All items are noted, and no block is open. -/
theorem foldl_known (p : List Item) :
    ((p.flatMap Item.statements).map fun t => t.inner.chars).foldl Scan.feed {} = known p := by
  induction p using List.reverseRecOn with
  | nil => rfl
  | append_singleton p i ih =>
    have hclosed : (known p).current = none := rfl
    rw [List.flatMap_append, List.map_append, List.foldl_append, ih, List.flatMap_singleton,
      foldl_item i hclosed, step_known]

/-! ### Diagrams -/

/-- **Main statement.** The lines of a list of items are read as its meaning, whatever white space
stands at their ends and between their pieces. -/
theorem read_items (items : List Item) :
    read ((items.flatMap Item.statements).map (Padded.chars Statement.chars)) = meaning items := by
  have hcontents := Padded.contents_padded Statement.chars (items.flatMap Item.statements)
    fun t _ => t.inner.isBare_chars
  rw [read, hcontents, foldl_known]
  simp only [known, Table.values_tabulate, meaning]

end Diagrams.Entities
