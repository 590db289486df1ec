import Diagrams.Json.Basic

/-!
# Boxes

* `Box` — a rectangle with whole coordinates.
* `Layout.grid` — the step of the grid on which nodes are placed.
* `Layout.snap` — the nearest grid line.
-/

namespace Diagrams

/-- A rectangle. The vertical axis points down. -/
structure Box where
  /-- The left edge. -/
  x : Int
  /-- The upper edge. -/
  y : Int
  /-- The width. -/
  width : Int
  /-- The height. -/
  height : Int
  deriving DecidableEq, Repr

namespace Box

/-- The right edge. -/
def right (b : Box) : Int := b.x + b.width

/-- The lower edge. -/
def bottom (b : Box) : Int := b.y + b.height

/-- Whether the insides of two boxes have a point in common. -/
def Overlaps (a b : Box) : Prop :=
  a.x < b.right ∧ b.x < a.right ∧ a.y < b.bottom ∧ b.y < a.bottom

instance (a b : Box) : Decidable (a.Overlaps b) := by unfold Overlaps; infer_instance

/-- The record of a box. -/
def toJson (b : Box) : Json :=
  .obj [("x", .int b.x), ("y", .int b.y), ("width", .int b.width), ("height", .int b.height)]

end Box

namespace Layout

/-- The step of the grid. -/
def grid : Int := 10

/-- The nearest grid line, the upper one of two that are equally near. -/
def snap (A : Number.Arithmetic) (value : Rat) : Int := A.onGrid grid value

/-- Grid lines are multiples of ten. -/
theorem dvd_snap (A : Number.Arithmetic) (value : Rat) : 10 ∣ snap A value :=
  A.dvd_onGrid grid value

end Layout

end Diagrams
