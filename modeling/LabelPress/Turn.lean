/-!
# Quarter turns

A picture, a mask or a whole label is turned by a multiple of ninety degrees, or not at all.
Angles follow the printing convention in which 90 degrees carries the top left corner to the
bottom left; any other angle than 90, 180 and 270 leaves things as they are.
-/

namespace LabelPress

/-- A turn by a multiple of ninety degrees. -/
inductive Turn where
  /-- No turn. -/
  | upright
  /-- The top left corner moves to the bottom left: 90 degrees. -/
  | left
  /-- Upside down: 180 degrees. -/
  | half
  /-- The top left corner moves to the top right: 270 degrees. -/
  | right
  deriving DecidableEq, Repr, Inhabited

namespace Turn

/-- The turn by a configured angle; unsupported angles mean no turn. -/
def ofDegrees (degrees : Int) : Turn :=
  if degrees = 90 then left
  else if degrees = 180 then half
  else if degrees = 270 then right
  else upright

/-- The angle of a turn. -/
def degrees : Turn → Int
  | upright => 0
  | left => 90
  | half => 180
  | right => 270

@[simp]
theorem ofDegrees_degrees (turn : Turn) : ofDegrees turn.degrees = turn := by
  cases turn <;> rfl

/-- Whether width and height change places. -/
def swapsSides : Turn → Bool
  | upright | half => false
  | left | right => true

/-- The sides of a turned rectangle, width first. -/
def sides (turn : Turn) (width height : Nat) : Nat × Nat :=
  if turn.swapsSides then (height, width) else (width, height)

/-- Where the cell `(x, y)` of a `width` by `height` grid lands. -/
def destination (turn : Turn) (width height x y : Nat) : Nat × Nat :=
  match turn with
  | upright => (x, y)
  | left => (y, width - 1 - x)
  | half => (width - 1 - x, height - 1 - y)
  | right => (height - 1 - y, x)

/-- The cell of a `width` by `height` grid that lands on `(x, y)`. -/
def source (turn : Turn) (width height x y : Nat) : Nat × Nat :=
  match turn with
  | upright => (x, y)
  | left => (width - 1 - y, x)
  | half => (width - 1 - x, height - 1 - y)
  | right => (y, height - 1 - x)

/--
Where the point `(x, y)` of a `width` by `height` rectangle lands; points lie on the lines
between the cells.
-/
def point (turn : Turn) (width height x y : Int) : Int × Int :=
  match turn with
  | upright => (x, y)
  | left => (y, width - x)
  | half => (width - x, height - y)
  | right => (height - y, x)

end Turn

end LabelPress
