/-!
# Spots

A spot is a point whose coordinates have single precision.  Parts of a glyph are put into place by
motions, which turn, stretch and shift.
-/

namespace LabelPress.Font

/-- A point. -/
structure Spot where
  x : Float32
  y : Float32

namespace Spot

/-- The sum of two points. -/
def add (first second : Spot) : Spot :=
  ⟨first.x + second.x, first.y + second.y⟩

/-- The point that lies the share `share` of the way from one point to another. -/
def between (share : Float32) (first second : Spot) : Spot :=
  ⟨first.x + share * (second.x - first.x), first.y + share * (second.y - first.y)⟩

end Spot

/-- A motion of the plane. -/
structure Motion where
  /-- Where one step along the first axis leads. -/
  across : Spot
  /-- Where one step along the second axis leads. -/
  up : Spot
  /-- Where the origin goes. -/
  origin : Spot

namespace Motion

/-- The motion that leaves everything in its place. -/
def rest : Motion := ⟨⟨1, 0⟩, ⟨0, 1⟩, ⟨0, 0⟩⟩

/-- Where a point goes. -/
def apply (motion : Motion) (spot : Spot) : Spot :=
  ⟨motion.across.x * spot.x + motion.up.x * spot.y + motion.origin.x,
    motion.across.y * spot.x + motion.up.y * spot.y + motion.origin.y⟩

/-- Where a direction goes. -/
def turn (motion : Motion) (direction : Spot) : Spot :=
  ⟨motion.across.x * direction.x + motion.up.x * direction.y,
    motion.across.y * direction.x + motion.up.y * direction.y⟩

/-- The motion that comes from a part and then from what the part belongs to. -/
def after (outer inner : Motion) : Motion :=
  ⟨outer.turn inner.across, outer.turn inner.up, outer.apply inner.origin⟩

end Motion

end LabelPress.Font
