import LabelPress.Proofs.Picture.Turning
import Mathlib.Algebra.BigOperators.Ring.List
import Mathlib.Algebra.Ring.Int.Defs

/-!
# Turns one after another

Two turns are one turn by the sum of their angles (`Turn.followedBy`).  The second turn sees the
sides as the first one has left them, with width and height in each other's place after a quarter
turn; what a place of the result shows is traced back through both (`Turn.source_followedBy`).

The main statement (`Picture.turns_compose`) says this of whole pictures, for two turns and for any
number of them.  So turns of a full circle restore the picture.
-/

namespace LabelPress

namespace Turn

/-- The turn by the sum of the angles of two turns. -/
def followedBy (first second : Turn) : Turn :=
  ofDegrees ((first.degrees + second.degrees) % 360)

theorem dvd_degrees (turn : Turn) : 90 ∣ turn.degrees := by
  cases turn <;> decide

/-- Every multiple of ninety degrees is the angle of a turn, up to full circles. -/
theorem degrees_ofDegrees_emod
    {angle : Int}
    (quarters : 90 ∣ angle) :
    (ofDegrees (angle % 360)).degrees = angle % 360 := by
  have angles : angle % 360 = 0 ∨ angle % 360 = 90 ∨ angle % 360 = 180 ∨ angle % 360 = 270 := by
    omega
  rcases angles with none | quarter | half | threeQuarters
  · rw [none]
    rfl
  · rw [quarter]
    rfl
  · rw [half]
    rfl
  · rw [threeQuarters]
    rfl

/-- A turn before one by an angle adds its own angle. -/
theorem followedBy_ofDegrees
    (first : Turn)
    {angle : Int}
    (quarters : 90 ∣ angle) :
    first.followedBy (ofDegrees (angle % 360)) =
      ofDegrees ((first.degrees + angle) % 360) := by
  rw [followedBy, degrees_ofDegrees_emod quarters, Int.add_emod_emod]

/-- The second turn is one of the sides that the first one leaves. -/
theorem sides_followedBy
    (first second : Turn)
    (width height : Nat) :
    (first.followedBy second).sides width height =
      second.sides (first.sides width height).1 (first.sides width height).2 := by
  cases first <;> cases second <;> rfl

/-- What lands on a place is traced back through the second turn, then through the first. -/
theorem source_followedBy
    (first second : Turn)
    {width height x y : Nat}
    (column : x < ((first.followedBy second).sides width height).1)
    (row : y < ((first.followedBy second).sides width height).2) :
    let middle := second.source (first.sides width height).1 (first.sides width height).2 x y
    (first.followedBy second).source width height x y =
      first.source width height middle.1 middle.2 := by
  -- A side is counted from its other end twice in some of the cases, and never in the others.
  cases first with
  | upright =>
      cases second <;> rfl
  | left =>
      cases second with
      | upright | left => rfl
      | half => exact Prod.ext (mirror_bounds row).2.symm rfl
      | right => exact Prod.ext (mirror_bounds column).2.symm rfl
  | half =>
      cases second with
      | upright => rfl
      | left => exact Prod.ext (mirror_bounds row).2.symm rfl
      | half => exact Prod.ext (mirror_bounds column).2.symm (mirror_bounds row).2.symm
      | right => exact Prod.ext rfl (mirror_bounds column).2.symm
  | right =>
      cases second with
      | upright | right => rfl
      | left => exact Prod.ext rfl (mirror_bounds row).2.symm
      | half => exact Prod.ext rfl (mirror_bounds column).2.symm

end Turn

namespace Picture

variable {picture : Picture}

/-- The sides after two turns, width first. -/
theorem sides_turn_turn
    (picture : Picture)
    (first second : Turn) :
    second.sides (picture.turn first).width (picture.turn first).height =
      (first.followedBy second).sides picture.width picture.height := by
  rw [width_turn, height_turn, Turn.sides_followedBy]

/-- Two turns are one turn by the sum of their angles. -/
theorem turn_turn
    (wellFormed : picture.WellFormed)
    (first second : Turn) :
    (picture.turn first).turn second = picture.turn (first.followedBy second) := by
  have sides := sides_turn_turn picture first second
  have width := width_turn second (picture.turn first)
  have height := height_turn second (picture.turn first)
  rw [sides, ← width_turn] at width
  rw [sides, ← height_turn] at height
  apply eq_of_byte ((wellFormed.turn first).turn second) (wellFormed.turn _) width height
  · rw [format_turn, format_turn, format_turn]
  · intro x y place column row inside
    rw [width_turn] at column
    rw [height_turn] at row
    rw [format_turn] at inside
    have lastColumn := Nat.lt_of_lt_of_eq column (congrArg Prod.fst sides.symm)
    have lastRow := Nat.lt_of_lt_of_eq row (congrArg Prod.snd sides.symm)
    have middle := (second.source_bounds lastColumn lastRow).1
    have lastInside : place < (picture.turn first).format.pixelBytes := by
      rw [format_turn]
      exact inside
    rw [byte_turn second (picture.turn first) lastColumn lastRow lastInside]
    rw [width_turn, height_turn] at middle ⊢
    rw [byte_turn first picture middle.1 middle.2 inside,
      byte_turn _ picture column row inside, Turn.source_followedBy first second column row]

/-- Half a turn undoes itself. -/
theorem turn_half_half (wellFormed : picture.WellFormed) :
    (picture.turn .half).turn .half = picture :=
  turn_turn wellFormed .half .half

/-- Turns one after another are one turn by the sum of all angles. -/
theorem foldl_turn
    (wellFormed : picture.WellFormed)
    (turns : List Turn) :
    turns.foldl (fun picture turn => picture.turn turn) picture =
      picture.turn (.ofDegrees ((turns.map Turn.degrees).sum % 360)) := by
  induction turns generalizing picture with
  | nil =>
      rfl
  | cons first turns ih =>
      have quarters : 90 ∣ (turns.map Turn.degrees).sum := by
        apply List.dvd_sum
        intro angle member
        rcases List.mem_map.mp member with ⟨turn, -, rfl⟩
        exact turn.dvd_degrees
      rw [List.foldl_cons, ih (wellFormed.turn first), turn_turn wellFormed,
        Turn.followedBy_ofDegrees first quarters, List.map_cons, List.sum_cons]

/--
Turns add up.  Two turns of a picture are the one turn by the sum of their angles, with the same
sides, format and bytes, and so are any number of turns one after another.  A turn by 90 degrees and
one by 270 degrees undo each other in either order, half a turn undoes itself, and any turn made
four times leaves the picture as it was.
-/
theorem turns_compose (wellFormed : picture.WellFormed) :
    (∀ first second : Turn,
        (picture.turn first).turn second =
          picture.turn (.ofDegrees ((first.degrees + second.degrees) % 360))) ∧
      (∀ turns : List Turn,
        turns.foldl (fun picture turn => picture.turn turn) picture =
          picture.turn (.ofDegrees ((turns.map Turn.degrees).sum % 360))) ∧
      (picture.turn .left).turn .right = picture ∧
      (picture.turn .right).turn .left = picture ∧
      (picture.turn .half).turn .half = picture ∧
      ∀ turn, (((picture.turn turn).turn turn).turn turn).turn turn = picture := by
  refine ⟨turn_turn wellFormed, foldl_turn wellFormed, turn_turn wellFormed .left .right,
    turn_turn wellFormed .right .left, turn_half_half wellFormed, ?_⟩
  intro turn
  have circle := foldl_turn wellFormed [turn, turn, turn, turn]
  cases turn <;> exact circle

/-- Six pixels in two rows, after a turn by 90 degrees, half a turn and a turn by 270 degrees. -/
theorem turns_compose_of_two_rows :
    let picture : Picture := ⟨3, 2, ⟨.grey, .sixteen⟩, #[1, 2, 3, 4, 5, 6, 7, 8, 9, 10, 11, 12]⟩
    picture.WellFormed ∧
      (picture.turn .left).turn .half =
        ⟨2, 3, ⟨.grey, .sixteen⟩, #[7, 8, 1, 2, 9, 10, 3, 4, 11, 12, 5, 6]⟩ ∧
      [.left, .half, .right].foldl (fun picture turn => picture.turn turn) picture =
        ⟨3, 2, ⟨.grey, .sixteen⟩, #[11, 12, 9, 10, 7, 8, 5, 6, 3, 4, 1, 2]⟩ := by
  intro picture
  have wellFormed : picture.WellFormed := rfl
  obtain ⟨two, all, -⟩ := turns_compose wellFormed
  refine ⟨wellFormed, (two .left .half).trans ?_, (all [.left, .half, .right]).trans ?_⟩
  · subst picture
    decide
  · subst picture
    decide

end Picture

end LabelPress
