import Diagrams.Drawio.Flowchart
import Mathlib.Algebra.Order.Group.Int

/-!
# Frames

* `Box.HasRoom` — the room at the four sides, more of it at the top, where the title stands.
* `Box.IsFrame` — room that cannot be less at any side: at each side some box stands as near as it
  may. A frame lies within every box that has as much room (`Box.IsFrame.isWithin`).
* `isFrame_groupBox` — the box around the members of a group is their frame.
-/

namespace Diagrams

/-! ### Frames -/

namespace Box

/-- One box lies within another. -/
def IsWithin (a b : Box) : Prop :=
  b.x ≤ a.x ∧ a.right ≤ b.right ∧ b.y ≤ a.y ∧ a.bottom ≤ b.bottom

/-- The boxes lie inside, with 50 units of room at the top and 20 units at the other sides. -/
structure HasRoom (frame : Box) (boxes : List Box) : Prop where
  /-- Room on the left. -/
  left : ∀ b ∈ boxes, frame.x + 20 ≤ b.x
  /-- Room on the right. -/
  right : ∀ b ∈ boxes, b.right + 20 ≤ frame.right
  /-- Room at the top. -/
  top : ∀ b ∈ boxes, frame.y + 50 ≤ b.y
  /-- Room at the bottom. -/
  bottom : ∀ b ∈ boxes, b.bottom + 20 ≤ frame.bottom

/-- The room around the boxes is used up at every side. -/
structure IsFrame (frame : Box) (boxes : List Box) : Prop extends frame.HasRoom boxes where
  /-- Some box stands as near as it may to the left edge. -/
  left_attained : ∃ b ∈ boxes, b.x = frame.x + 20
  /-- Some box stands as near as it may to the right edge. -/
  right_attained : ∃ b ∈ boxes, b.right + 20 = frame.right
  /-- Some box stands as near as it may to the top. -/
  top_attained : ∃ b ∈ boxes, b.y = frame.y + 50
  /-- Some box stands as near as it may to the bottom. -/
  bottom_attained : ∃ b ∈ boxes, b.bottom + 20 = frame.bottom

variable {frame : Box} {boxes boxes' : List Box}

/-- No box with as much room is smaller than a frame at any side. -/
theorem IsFrame.isWithin (h : frame.IsFrame boxes) {other : Box} (hroom : other.HasRoom boxes) :
    frame.IsWithin other := by
  obtain ⟨l, hl, hleft⟩ := h.left_attained
  obtain ⟨r, hr, hright⟩ := h.right_attained
  obtain ⟨t, ht, htop⟩ := h.top_attained
  obtain ⟨b, hb, hbottom⟩ := h.bottom_attained
  have hleft' := hroom.left l hl
  have hright' := hroom.right r hr
  have htop' := hroom.top t ht
  have hbottom' := hroom.bottom b hb
  unfold IsWithin
  omega

/-- Which boxes a frame is around matters, and not how they are listed. -/
theorem IsFrame.congr (h : frame.IsFrame boxes) (hmem : ∀ b, b ∈ boxes' ↔ b ∈ boxes) :
    frame.IsFrame boxes' where
  left := fun b hb => h.left b ((hmem b).mp hb)
  right := fun b hb => h.right b ((hmem b).mp hb)
  top := fun b hb => h.top b ((hmem b).mp hb)
  bottom := fun b hb => h.bottom b ((hmem b).mp hb)
  left_attained := h.left_attained.imp fun b hb => ⟨(hmem b).mpr hb.1, hb.2⟩
  right_attained := h.right_attained.imp fun b hb => ⟨(hmem b).mpr hb.1, hb.2⟩
  top_attained := h.top_attained.imp fun b hb => ⟨(hmem b).mpr hb.1, hb.2⟩
  bottom_attained := h.bottom_attained.imp fun b hb => ⟨(hmem b).mpr hb.1, hb.2⟩

end Box

/-! ### The box around the members of a group -/

namespace Drawio

/-- A least value is that of some box, and no box has a smaller one. -/
theorem least_of_min? {f : Box → Int} {bs : List Box} {m : Int} (h : (bs.map f).min? = some m) :
    (∃ b ∈ bs, f b = m) ∧ ∀ b ∈ bs, m ≤ f b := by
  obtain ⟨hmem, hle⟩ := List.min?_eq_some_iff.mp h
  exact ⟨List.mem_map.mp hmem, fun b hb => hle _ (List.mem_map_of_mem hb)⟩

/-- A greatest value is that of some box, and no box has a greater one. -/
theorem greatest_of_max? {f : Box → Int} {bs : List Box} {m : Int}
    (h : (bs.map f).max? = some m) : (∃ b ∈ bs, f b = m) ∧ ∀ b ∈ bs, f b ≤ m := by
  obtain ⟨hmem, hle⟩ := List.max?_eq_some_iff.mp h
  exact ⟨List.mem_map.mp hmem, fun b hb => hle _ (List.mem_map_of_mem hb)⟩

/-- A group is drawn with the box around its members. -/
theorem groupBox_of_mem_drawnGroups {boxes : Table Box} {groups : List Group} {name : String}
    {g : Group} {box : Box} (h : (name, g, box) ∈ drawnGroups boxes groups) :
    groupBox boxes g.members = some box := by
  obtain ⟨p, -, hp⟩ := List.mem_filterMap.mp h
  obtain ⟨b, hb, heq⟩ := Option.map_eq_some_iff.mp hp
  cases heq
  exact hb

/-- The box around the members of a group is the frame of their boxes. -/
theorem isFrame_groupBox {boxes : Table Box} {members : List String} {frame : Box}
    (h : groupBox boxes members = some frame) : frame.IsFrame (members.filterMap boxes.get?) := by
  obtain ⟨x, hx, h⟩ := Option.bind_eq_some_iff.mp h
  obtain ⟨y, hy, h⟩ := Option.bind_eq_some_iff.mp h
  obtain ⟨right, hright, h⟩ := Option.bind_eq_some_iff.mp h
  obtain ⟨bottom, hbottom, h⟩ := Option.bind_eq_some_iff.mp h
  cases h
  obtain ⟨⟨l, hl, rfl⟩, hleft⟩ := least_of_min? hx
  obtain ⟨⟨t, ht, rfl⟩, htop⟩ := least_of_min? hy
  obtain ⟨⟨r, hr, rfl⟩, hright⟩ := greatest_of_max? hright
  obtain ⟨⟨b, hb, rfl⟩, hbottom⟩ := greatest_of_max? hbottom
  -- the width and the height are those of the members with the room at both sides
  have hwidth : l.x - padding + (r.right - l.x + padding * 2) = r.right + 20 := by
    unfold padding
    omega
  have hheight : t.y - padding - titleHeight + (b.bottom - t.y + padding * 2 + titleHeight) =
      b.bottom + 20 := by
    unfold padding titleHeight
    omega
  have hx : l.x - padding + 20 = l.x := by
    unfold padding
    omega
  have hy : t.y - padding - titleHeight + 50 = t.y := by
    unfold padding titleHeight
    omega
  exact {
    left := fun c hc => hx.le.trans (hleft c hc)
    right := fun c hc => (Int.add_le_add_right (hright c hc) 20).trans hwidth.ge
    top := fun c hc => hy.le.trans (htop c hc)
    bottom := fun c hc => (Int.add_le_add_right (hbottom c hc) 20).trans hheight.ge
    left_attained := ⟨l, hl, hx.symm⟩
    right_attained := ⟨r, hr, hwidth.symm⟩
    top_attained := ⟨t, ht, hy.symm⟩
    bottom_attained := ⟨b, hb, hheight.symm⟩ }

/-- Boxes above the origin, one above the other. -/
example : groupBox [("a", ⟨100, -50, 140, 50⟩), ("b", ⟨100, -140, 160, 50⟩)] ["b", "a"] =
    some ⟨80, -190, 200, 210⟩ := by
  decide

end Drawio

end Diagrams
