import LabelPress.Picture
import LabelPress.Proofs.Drawing.Checked
import Mathlib.Data.Set.Function

/-!
# Turning moves every pixel to a place of its own

A well-formed picture is known by its sides, its format and the bytes of its pixels
(`Picture.eq_of_byte`).  A turned picture has, at every place, the bytes of the pixel that lands
there (`Picture.byte_turn`).

The main statement (`Picture.turn_permutes_pixels`) says that a turn is a permutation of the pixels:
no two of them land on one place, and no place stays without a pixel.  So a picture may also be
turned by writing its pixels one after another into a buffer, and nothing of what the buffer held
before is left.  A canvas that is turned shows what its picture shows after the same turn.
-/

namespace LabelPress.Picture

/-! ## Bytes of pixels -/

/-- The number of a byte of the pixel at column `x` and row `y`, in the order of all bytes. -/
def byteIndex (picture : Picture) (x y place : Nat) : Nat :=
  (y * picture.width + x) * picture.format.pixelBytes + place

theorem byteIndex_lt {picture : Picture} {x y place : Nat} (column : x < picture.width)
    (row : y < picture.height) (inside : place < picture.format.pixelBytes) :
    picture.byteIndex x y place < picture.byteCount := by
  rw [byteCount, Nat.mul_comm]
  exact Grid.index_lt inside (Grid.index_lt column row)

/-- Every byte belongs to a pixel. -/
theorem exists_byteIndex {picture : Picture} {index : Nat} (inside : index < picture.byteCount) :
    ∃ x y place, x < picture.width ∧ y < picture.height ∧
      place < picture.format.pixelBytes ∧ index = picture.byteIndex x y place := by
  have pixelLt : index / picture.format.pixelBytes < picture.width * picture.height :=
    Nat.div_lt_of_lt_mul (by rw [Nat.mul_comm]; exact inside)
  have widthPos : 0 < picture.width := Nat.pos_of_mul_pos_right (Nat.zero_lt_of_lt pixelLt)
  refine ⟨index / picture.format.pixelBytes % picture.width,
    index / picture.format.pixelBytes / picture.width, index % picture.format.pixelBytes,
    Nat.mod_lt _ widthPos, Nat.div_lt_of_lt_mul pixelLt,
    Nat.mod_lt _ picture.format.pixelBytes_pos, ?_⟩
  rw [byteIndex, Nat.div_add_mod', Nat.div_add_mod']

theorem getElem?_byteIndex {picture : Picture} (wellFormed : picture.WellFormed) {x y place : Nat}
    (column : x < picture.width) (row : y < picture.height)
    (inside : place < picture.format.pixelBytes) :
    picture.bytes[picture.byteIndex x y place]? = some (picture.byte x y place) := by
  have there : picture.byteIndex x y place < picture.bytes.size := by
    rw [wellFormed]
    exact byteIndex_lt column row inside
  rw [Array.getElem?_eq_getElem there]
  exact congrArg some (Array.getElem_eq_getD 0)

/-- A well-formed picture is known by its sides, its format and the bytes of its pixels. -/
theorem eq_of_byte {first second : Picture} (firstWellFormed : first.WellFormed)
    (secondWellFormed : second.WellFormed) (width : first.width = second.width)
    (height : first.height = second.height) (format : first.format = second.format)
    (same : ∀ x y place, x < second.width → y < second.height →
      place < second.format.pixelBytes → first.byte x y place = second.byte x y place) :
    first = second := by
  have counts : first.byteCount = second.byteCount := by
    rw [byteCount, byteCount, width, height, format]
  have bytes : first.bytes = second.bytes := by
    apply Array.ext_getElem?
    intro index
    by_cases inside : index < second.byteCount
    · rcases exists_byteIndex inside with ⟨x, y, place, column, row, placeLt, rfl⟩
      have index : second.byteIndex x y place = first.byteIndex x y place := by
        rw [byteIndex, byteIndex, width, format]
      rw [getElem?_byteIndex secondWellFormed column row placeLt, index,
        getElem?_byteIndex firstWellFormed (width ▸ column) (height ▸ row) (format ▸ placeLt),
        same x y place column row placeLt]
    · rw [Array.getElem?_eq_none, Array.getElem?_eq_none]
      · rw [secondWellFormed]
        omega
      · rw [firstWellFormed]
        omega
  cases first
  cases second
  cases width
  cases height
  cases format
  cases bytes
  rfl

theorem byte_ofFn {width height : Nat} {format : PixelFormat} (byte : Nat → Nat → Nat → UInt8)
    {x y place : Nat} (column : x < width) (row : y < height)
    (inside : place < format.pixelBytes) :
    (ofFn width height format byte).byte x y place = byte x y place := by
  have there : (ofFn width height format byte).byteIndex x y place <
      width * height * format.pixelBytes := byteIndex_lt column row inside
  have pixel := Grid.index_div_mod inside (y * width + x)
  have spot := Grid.index_div_mod column y
  have found := getElem?_byteIndex (wellFormed_ofFn width height format byte) column row inside
  rw [show (ofFn width height format byte).bytes = Array.ofFn _ from rfl, Array.getElem?_ofFn,
    dif_pos there, Option.some.injEq] at found
  rw [← found]
  simp only [byteIndex, ofFn]
  rw [pixel.1, pixel.2, spot.1, spot.2]

/-! ## Bytes of turned pictures -/

@[simp]
theorem width_turn (turn : Turn) (picture : Picture) :
    (picture.turn turn).width = (turn.sides picture.width picture.height).1 := by
  cases turn <;> rfl

@[simp]
theorem height_turn (turn : Turn) (picture : Picture) :
    (picture.turn turn).height = (turn.sides picture.width picture.height).2 := by
  cases turn <;> rfl

@[simp]
theorem format_turn (turn : Turn) (picture : Picture) :
    (picture.turn turn).format = picture.format := by
  cases turn <;> rfl

/-- A turned picture has as many bytes as before. -/
theorem byteCount_turn (turn : Turn) (picture : Picture) :
    (picture.turn turn).byteCount = picture.byteCount := by
  rw [byteCount, byteCount, width_turn, height_turn, format_turn]
  cases turn with
  | upright =>
      rfl
  | left =>
      exact congrArg (· * picture.format.pixelBytes) (Nat.mul_comm _ _)
  | half =>
      rfl
  | right =>
      exact congrArg (· * picture.format.pixelBytes) (Nat.mul_comm _ _)

/-- A byte of a turned picture is that of the pixel which lands on its place. -/
theorem byte_turn (turn : Turn) (picture : Picture) {x y place : Nat}
    (column : x < (turn.sides picture.width picture.height).1)
    (row : y < (turn.sides picture.width picture.height).2)
    (inside : place < picture.format.pixelBytes) :
    (picture.turn turn).byte x y place =
      picture.byte (turn.source picture.width picture.height x y).1
        (turn.source picture.width picture.height x y).2 place := by
  cases turn with
  | upright =>
      rfl
  | left =>
      exact byte_ofFn _ column row inside
  | half =>
      exact byte_ofFn _ column row inside
  | right =>
      exact byte_ofFn _ column row inside

/-- A pixel is found, byte by byte, at the place where it lands. -/
theorem byte_destination (turn : Turn) (picture : Picture) {x y place : Nat}
    (column : x < picture.width) (row : y < picture.height)
    (inside : place < picture.format.pixelBytes) :
    (picture.turn turn).byte (turn.destination picture.width picture.height x y).1
        (turn.destination picture.width picture.height x y).2 place =
      picture.byte x y place := by
  obtain ⟨lands, back⟩ := turn.destination_bounds column row
  rw [byte_turn turn picture lands.1 lands.2 inside, back]

/-! ## Canvases -/

theorem byte_ofCanvas (canvas : Canvas) {x y : Nat} (column : x < canvas.width) (place : Nat)
    (inside : place < 1) :
    (ofCanvas canvas).byte x y place = canvas.cellD x y 0 := by
  obtain rfl : place = 0 := by omega
  rw [Grid.cellD, if_pos column]
  exact congrArg (canvas.cells.getD · 0) (Nat.mul_one _)

/-- A turned canvas shows what its picture shows after the same turn. -/
theorem ofCanvas_turn (turn : Turn) (canvas : Canvas) :
    ofCanvas (canvas.turn turn) = (ofCanvas canvas).turn turn := by
  have width : (ofCanvas (canvas.turn turn)).width =
      (turn.sides canvas.width canvas.height).1 := Grid.width_turn turn canvas
  have height : (ofCanvas (canvas.turn turn)).height =
      (turn.sides canvas.width canvas.height).2 := Grid.height_turn turn canvas
  refine eq_of_byte (wellFormed_ofCanvas _) ((wellFormed_ofCanvas canvas).turn turn)
    (width.trans (width_turn turn (ofCanvas canvas)).symm)
    (height.trans (height_turn turn (ofCanvas canvas)).symm)
    (format_turn turn (ofCanvas canvas)).symm ?_
  intro x y place column row inside
  rw [width_turn] at column
  rw [height_turn] at row
  rw [format_turn] at inside
  obtain ⟨within, -⟩ := turn.source_bounds column row
  rw [byte_turn turn (ofCanvas canvas) column row inside,
    byte_ofCanvas canvas within.1 place inside,
    byte_ofCanvas (canvas.turn turn) (Nat.lt_of_lt_of_eq column width.symm) place inside,
    Grid.cellD_eq, Grid.cellD_eq, Grid.cell?_turn turn canvas column row]
  rfl

/-! ## Writing the pixels one after another -/

/-- Writes the bytes of a pixel into a buffer, where the turned picture has the pixel. -/
def copyPixel (turn : Turn) (picture : Picture) (buffer : Array UInt8) (pixel : Nat × Nat) :
    Array UInt8 :=
  let (x, y) := turn.destination picture.width picture.height pixel.1 pixel.2
  let (width, _) := turn.sides picture.width picture.height
  Grid.updateRun (fun place _ => picture.byte pixel.1 pixel.2 place)
    ((y * width + x) * picture.format.pixelBytes) picture.format.pixelBytes buffer

/-- Writes all pixels into a buffer, row by row. -/
def copyPixels (turn : Turn) (picture : Picture) (buffer : Array UInt8) : Array UInt8 :=
  (Checked.places 0 0 picture.width picture.height).foldl (picture.copyPixel turn) buffer

/-- The number that a byte of a pixel has in the turned picture. -/
def turnedIndex (turn : Turn) (picture : Picture) (pixel : Nat × Nat) (place : Nat) : Nat :=
  (picture.turn turn).byteIndex
    (turn.destination picture.width picture.height pixel.1 pixel.2).1
    (turn.destination picture.width picture.height pixel.1 pixel.2).2 place

section Copying

variable {turn : Turn} {picture : Picture} {buffer : Array UInt8} {pixel : Nat × Nat}

/-- A pixel is written over its own bytes of the turned picture, and over no others. -/
theorem getElem?_copyPixel (wellFormed : picture.WellFormed)
    (size : buffer.size = (picture.turn turn).byteCount) (column : pixel.1 < picture.width)
    (row : pixel.2 < picture.height) (index : Nat) :
    (picture.copyPixel turn buffer pixel)[index]? =
      if ∃ place < picture.format.pixelBytes, index = picture.turnedIndex turn pixel place then
        (picture.turn turn).bytes[index]?
      else buffer[index]? := by
  have lands := (turn.destination_bounds column row).1
  have start : ∀ place, picture.turnedIndex turn pixel place =
      ((turn.destination picture.width picture.height pixel.1 pixel.2).2 *
          (turn.sides picture.width picture.height).1 +
        (turn.destination picture.width picture.height pixel.1 pixel.2).1) *
          picture.format.pixelBytes + place := by
    intro place
    rw [turnedIndex, byteIndex, width_turn, format_turn]
  rw [copyPixel, Grid.getElem?_updateRun]
  by_cases covered : ∃ place < picture.format.pixelBytes,
      index = picture.turnedIndex turn pixel place
  · rw [if_pos covered]
    obtain ⟨place, inside, rfl⟩ := covered
    have columnLt := Nat.lt_of_lt_of_eq lands.1 (width_turn turn picture).symm
    have rowLt := Nat.lt_of_lt_of_eq lands.2 (height_turn turn picture).symm
    have placeLt : place < (picture.turn turn).format.pixelBytes := by
      rw [format_turn]
      exact inside
    have byte := getElem?_byteIndex (wellFormed.turn turn) columnLt rowLt placeLt
    rw [byte_destination turn picture column row inside] at byte
    have there : picture.turnedIndex turn pixel place < buffer.size := by
      rw [size]
      exact byteIndex_lt columnLt rowLt placeLt
    obtain ⟨old, found⟩ : ∃ old, buffer[picture.turnedIndex turn pixel place]? = some old :=
      ⟨_, Array.getElem?_eq_getElem there⟩
    rw [found, start, if_pos (by omega), Nat.add_sub_cancel_left, ← start, turnedIndex, byte]
    rfl
  · rw [if_neg covered, if_neg]
    rintro ⟨after, before⟩
    exact covered ⟨_, Nat.sub_lt_left_of_lt_add after before, by rw [start]; omega⟩

theorem size_copyPixel : (picture.copyPixel turn buffer pixel).size = buffer.size :=
  Grid.size_updateRun _ _ _ _

/--
What is right in a buffer stays right while pixels are written, and the bytes of every pixel that
has been written are right.
-/
theorem getElem?_foldl_copyPixel (wellFormed : picture.WellFormed) (pixels : List (Nat × Nat))
    (within : ∀ pixel ∈ pixels, pixel.1 < picture.width ∧ pixel.2 < picture.height)
    (size : buffer.size = (picture.turn turn).byteCount) {index : Nat}
    (right : buffer[index]? = (picture.turn turn).bytes[index]? ∨
      ∃ pixel ∈ pixels, ∃ place < picture.format.pixelBytes,
        index = picture.turnedIndex turn pixel place) :
    (pixels.foldl (picture.copyPixel turn) buffer)[index]? =
      (picture.turn turn).bytes[index]? := by
  induction pixels generalizing buffer with
  | nil =>
      rcases right with right | ⟨pixel, member, -⟩
      · exact right
      · cases member
  | cons pixel pixels ih =>
      have inside := within pixel List.mem_cons_self
      have step := getElem?_copyPixel wellFormed size inside.1 inside.2 index
      refine ih (fun other member => within other (List.mem_cons_of_mem pixel member))
        (size_copyPixel.trans size) ?_
      by_cases covered : ∃ place < picture.format.pixelBytes,
          index = picture.turnedIndex turn pixel place
      · exact Or.inl (step.trans (if_pos covered))
      · rcases right with right | ⟨other, member, written⟩
        · exact Or.inl ((step.trans (if_neg covered)).trans right)
        · rcases List.mem_cons.mp member with rfl | later
          · exact absurd written covered
          · exact Or.inr ⟨other, later, written⟩

theorem size_foldl_copyPixel (pixels : List (Nat × Nat)) :
    (pixels.foldl (picture.copyPixel turn) buffer).size = buffer.size := by
  induction pixels generalizing buffer with
  | nil =>
      rfl
  | cons pixel pixels ih =>
      exact ih.trans size_copyPixel

/-- Whatever a buffer of the right size held, the pixels replace all of it. -/
theorem copyPixels_eq (wellFormed : picture.WellFormed)
    (size : buffer.size = (picture.turn turn).byteCount) :
    picture.copyPixels turn buffer = (picture.turn turn).bytes := by
  apply Array.ext_getElem?
  intro index
  by_cases inside : index < (picture.turn turn).byteCount
  · rcases exists_byteIndex inside with ⟨x, y, place, column, row, placeLt, rfl⟩
    rw [width_turn] at column
    rw [height_turn] at row
    rw [format_turn] at placeLt
    -- This byte was written with the pixel that lands on its place.
    obtain ⟨source, lands⟩ := turn.source_bounds column row
    refine getElem?_foldl_copyPixel wellFormed _ (fun pixel member => ?_) size
      (Or.inr ⟨turn.source picture.width picture.height x y, ?_, place, placeLt, ?_⟩)
    · have bounds := Checked.mem_places_iff.mp member
      exact ⟨bounds.1.2, bounds.2.2⟩
    · exact Checked.mem_places_iff.mpr ⟨⟨Nat.zero_le _, source.1⟩, Nat.zero_le _, source.2⟩
    · rw [turnedIndex, lands]
  · rw [Array.getElem?_eq_none, Array.getElem?_eq_none]
    · rw [wellFormed.turn turn]
      omega
    · rw [copyPixels, size_foldl_copyPixel, size]
      omega

end Copying

/-! ## Turning as a permutation -/

theorem bijOn_destination (turn : Turn) (width height : Nat) :
    Set.BijOn (fun pixel : Nat × Nat => turn.destination width height pixel.1 pixel.2)
      {pixel | pixel.1 < width ∧ pixel.2 < height}
      {place | place.1 < (turn.sides width height).1 ∧
        place.2 < (turn.sides width height).2} := by
  refine ⟨?_, ?_, ?_⟩
  · rintro ⟨x, y⟩ ⟨column, row⟩
    exact (turn.destination_bounds column row).1
  · rintro first firstInside second secondInside same
    have firstBack := (turn.destination_bounds firstInside.1 firstInside.2).2
    have secondBack := (turn.destination_bounds secondInside.1 secondInside.2).2
    have same : turn.destination width height first.1 first.2 =
        turn.destination width height second.1 second.2 := same
    rw [same] at firstBack
    exact firstBack.symm.trans secondBack
  · rintro ⟨x, y⟩ ⟨column, row⟩
    obtain ⟨inside, lands⟩ := turn.source_bounds column row
    exact ⟨turn.source width height x y, inside, lands⟩

/--
A turn is a permutation of the pixels.  A turned picture keeps its format and all its bytes, and
its sides change places with a turn by 90 or 270 degrees.  Each pixel lands with all its bytes on
the place that the angle gives to it; these places are all places of the turned picture, and each
belongs to one pixel.  So the turned picture is what is left in a buffer, whatever it held before,
once all pixels are written to their places.  A canvas is turned as its picture is.
-/
theorem turn_permutes_pixels {picture : Picture} (wellFormed : picture.WellFormed)
    (turn : Turn) :
    let turned := picture.turn turn
    let sides : Nat × Nat :=
      match turn with
      | .upright | .half => (picture.width, picture.height)
      | .left | .right => (picture.height, picture.width)
    let lands : Nat × Nat → Nat × Nat := fun (x, y) =>
      match turn with
      | .upright => (x, y)
      | .left => (y, picture.width - 1 - x)
      | .half => (picture.width - 1 - x, picture.height - 1 - y)
      | .right => (picture.height - 1 - y, x)
    (turned.width = sides.1 ∧ turned.height = sides.2 ∧ turned.format = picture.format ∧
        turned.WellFormed) ∧
      (∀ x y, x < picture.width → y < picture.height →
        turned.pixel (lands (x, y)).1 (lands (x, y)).2 = picture.pixel x y) ∧
      Set.BijOn lands {pixel | pixel.1 < picture.width ∧ pixel.2 < picture.height}
        {place | place.1 < turned.width ∧ place.2 < turned.height} ∧
      (∀ buffer, buffer.size = turned.byteCount → picture.copyPixels turn buffer = turned.bytes) ∧
      ∀ canvas : Canvas, ofCanvas (canvas.turn turn) = (ofCanvas canvas).turn turn := by
  intro turned sides lands
  have sidesEq : turn.sides picture.width picture.height = sides := by
    cases turn <;> rfl
  have landsEq : (fun pixel : Nat × Nat =>
      turn.destination picture.width picture.height pixel.1 pixel.2) = lands := by
    cases turn <;> rfl
  have width : turned.width = sides.1 := (width_turn turn picture).trans (congrArg _ sidesEq)
  have height : turned.height = sides.2 := (height_turn turn picture).trans (congrArg _ sidesEq)
  refine ⟨⟨width, height, format_turn turn picture, wellFormed.turn turn⟩, ?_, ?_,
    fun buffer => copyPixels_eq wellFormed, ofCanvas_turn turn⟩
  · intro x y column row
    rw [← landsEq, pixel, pixel, format_turn]
    refine List.map_congr_left fun place inside => ?_
    exact byte_destination turn picture column row (List.mem_range.mp inside)
  · rw [width, height, ← sidesEq, ← landsEq]
    exact bijOn_destination turn picture.width picture.height

/-- Two pixels in colour, side by side, after a turn by 90 degrees. -/
theorem turn_permutes_pixels_of_colour :
    let picture : Picture := ⟨2, 1, ⟨.rgb, .eight⟩, #[1, 2, 3, 4, 5, 6]⟩
    picture.WellFormed ∧ (picture.turn .left).WellFormed ∧
      (picture.turn .left).pixel 0 (2 - 1 - 0) = [1, 2, 3] ∧
      (picture.turn .left).pixel 0 (2 - 1 - 1) = [4, 5, 6] ∧
      picture.copyPixels .left #[7, 7, 7, 7, 7, 7] = #[4, 5, 6, 1, 2, 3] := by
  intro picture
  have wellFormed : picture.WellFormed := rfl
  obtain ⟨shape, pixels, -, copied, -⟩ := turn_permutes_pixels wellFormed .left
  refine ⟨wellFormed, shape.2.2.2, ?_, ?_, ?_⟩
  · exact pixels 0 0 (by decide) (by decide)
  · exact pixels 1 0 (by decide) (by decide)
  · rw [copied #[7, 7, 7, 7, 7, 7] rfl]
    subst picture
    decide

end LabelPress.Picture
