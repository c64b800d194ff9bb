import LabelPress.Proofs.Drawing.Checked
import LabelPress.Proofs.Markup.WellFormed

/-!
# Turning, placing and painting stay in range

A mask is turned byte by byte into a buffer of its own, placed by its sides and its origin, and
painted dot by dot; what lies outside the canvas is left out before a dot is looked for.  Here each
difference, index and coordinate is checked.  A turned mask fills its buffer (`turn_eq_some`), the
place of a field is a number of 32 bits in each direction (`position_eq_some`), and painting never
touches a dot that is not there (`paintOnto_eq_some`).
-/

namespace LabelPress.Checked

/-! ## Turning -/

/-- Where a cell of a grid lands. -/
def destination (turn : Turn) (width height x y : Nat) : Option (Nat × Nat) :=
  match turn with
  | .upright => some (x, y)
  | .left => do
    let last ← minus width 1
    let row ← minus last x
    return (y, row)
  | .half => do
    let lastColumn ← minus width 1
    let column ← minus lastColumn x
    let lastRow ← minus height 1
    let row ← minus lastRow y
    return (column, row)
  | .right => do
    let last ← minus height 1
    let column ← minus last y
    return (column, x)

/-- A picture from the bytes of its rows; there is none unless the rows are complete. -/
def ofBuffer (width height : Nat) (buffer : Array UInt8) : Option (Grid UInt8) :=
  if complete : buffer.size = width * height then some ⟨width, height, buffer, complete⟩ else none

/-- Writes a byte of a picture to the place where the picture has it after a turn. -/
def turnByte (turn : Turn) (image : Grid UInt8) (buffer : Array UInt8) (place : Nat × Nat) :
    Option (Array UInt8) := do
  let target ← destination turn image.width image.height place.1 place.2
  let dot ← image.cells[place.2 * image.width + place.1]?
  putAt buffer (target.2 * (turn.sides image.width image.height).1 + target.1) fun _ => dot

/-- The picture after a turn. -/
def turn (turn : Turn) (image : Grid UInt8) : Option (Grid UInt8) :=
  if turn = .upright then some image
  else do
    let sides := turn.sides image.width image.height
    let buffer ← (places 0 0 image.width image.height).foldlM (turnByte turn image)
      (Array.replicate (sides.1 * sides.2) 0)
    ofBuffer sides.1 sides.2 buffer

theorem destination_eq_some (turn : Turn) {width height x y : Nat} (column : x < width)
    (row : y < height) :
    destination turn width height x y = some (turn.destination width height x y) := by
  cases turn with
  | upright =>
      rfl
  | left =>
      rw [destination, bind_of_eq_some (minus_of_le (by omega)),
        bind_of_eq_some (minus_of_le (by omega))]
      rfl
  | half =>
      rw [destination, bind_of_eq_some (minus_of_le (by omega)),
        bind_of_eq_some (minus_of_le (by omega)), bind_of_eq_some (minus_of_le (by omega)),
        bind_of_eq_some (minus_of_le (by omega))]
      rfl
  | right =>
      rw [destination, bind_of_eq_some (minus_of_le (by omega)),
        bind_of_eq_some (minus_of_le (by omega))]
      rfl

/-- A column and a row are known by their number in the order of rows. -/
theorem eq_of_index_eq {width : Nat} {first second : Nat × Nat} (firstLt : first.1 < width)
    (secondLt : second.1 < width)
    (same : first.2 * width + first.1 = second.2 * width + second.1) : first = second := by
  have firstPlace := Grid.index_div_mod firstLt first.2
  have secondPlace := Grid.index_div_mod secondLt second.2
  rw [same] at firstPlace
  exact Prod.ext (firstPlace.2.symm.trans secondPlace.2) (firstPlace.1.symm.trans secondPlace.1)

theorem changes_putAt {Entry : Type} {size index : Nat} (change : Entry → Entry)
    (inside : index < size) :
    Changes (fun cells index => cells[index]?) (fun cells : Array Entry => cells.size = size)
      (putAt · index change) (· = index) change := by
  rintro cells rfl
  refine ⟨cells.modify index change, if_pos inside, Array.size_modify .., ?_⟩
  intro other
  constructor
  · rintro rfl
    exact (Array.getElem?_modify ..).trans (if_pos rfl)
  · intro elsewhere
    exact (Array.getElem?_modify ..).trans (if_neg fun same => elsewhere same.symm)

/-- The number that the byte of a place has in the buffer of a turned picture. -/
def turnedIndex (turn : Turn) (width height : Nat) (place : Nat × Nat) : Nat :=
  (turn.destination width height place.1 place.2).2 * (turn.sides width height).1 +
    (turn.destination width height place.1 place.2).1

theorem turnedIndex_lt (turn : Turn) {width height : Nat} {place : Nat × Nat}
    (member : place ∈ places 0 0 width height) :
    turnedIndex turn width height place <
      (turn.sides width height).1 * (turn.sides width height).2 := by
  have inside := mem_places_iff.mp member
  have lands := (turn.destination_bounds inside.1.2 inside.2.2).1
  exact Grid.index_lt lands.1 lands.2

/-- No two bytes have the same number. -/
theorem eq_of_turnedIndex_eq (turn : Turn) {width height : Nat} {first second : Nat × Nat}
    (firstMember : first ∈ places 0 0 width height)
    (secondMember : second ∈ places 0 0 width height)
    (same : turnedIndex turn width height first = turnedIndex turn width height second) :
    first = second := by
  have firstInside := mem_places_iff.mp firstMember
  have secondInside := mem_places_iff.mp secondMember
  have firstLands := turn.destination_bounds firstInside.1.2 firstInside.2.2
  have secondLands := turn.destination_bounds secondInside.1.2 secondInside.2.2
  have targets := eq_of_index_eq firstLands.1.1 secondLands.1.1 same
  calc
    first = turn.source width height (turn.destination width height first.1 first.2).1
        (turn.destination width height first.1 first.2).2 := firstLands.2.symm
    _ = turn.source width height (turn.destination width height second.1 second.2).1
        (turn.destination width height second.1 second.2).2 := by rw [targets]
    _ = second := secondLands.2

theorem changes_turnByte (turn : Turn) (image : Grid UInt8) {place : Nat × Nat}
    (member : place ∈ places 0 0 image.width image.height) :
    Changes (fun cells index => cells[index]?)
      (fun cells : Array UInt8 => cells.size = (turn.sides image.width image.height).1 *
        (turn.sides image.width image.height).2)
      (turnByte turn image · place) (· = turnedIndex turn image.width image.height place)
      (fun _ => image.cellD place.1 place.2 0) := by
  have inside := mem_places_iff.mp member
  rcases Grid.exists_cell? inside.1.2 inside.2.2 with ⟨dot, found⟩
  have byte : image.cells[place.2 * image.width + place.1]? = some dot := by
    rw [Grid.cell?, if_pos inside.1.2] at found
    exact found
  refine (changes_putAt _ (turnedIndex_lt turn member)).congr_step ?_
  intro buffer _
  rw [turnByte, bind_of_eq_some (destination_eq_some turn inside.1.2 inside.2.2),
    bind_of_eq_some byte, Grid.cellD_eq, found]
  rfl

/-- The bytes of a picture are written to places of their own, and each place gets its byte. -/
theorem exists_turnBytes (turn : Turn) (image : Grid UInt8) :
    ∃ buffer,
      (places 0 0 image.width image.height).foldlM (turnByte turn image)
          (Array.replicate ((turn.sides image.width image.height).1 *
            (turn.sides image.width image.height).2) 0) = some buffer ∧
        buffer.size = (turn.sides image.width image.height).1 *
          (turn.sides image.width image.height).2 ∧
        ∀ place ∈ places 0 0 image.width image.height,
          buffer[turnedIndex turn image.width image.height place]? =
            image.cell? place.1 place.2 := by
  have apart : (places 0 0 image.width image.height).Pairwise fun first second => ∀ index,
      index = turnedIndex turn image.width image.height first →
        ¬index = turnedIndex turn image.width image.height second := by
    refine (nodup_places _ _ _ _).imp_of_mem ?_
    rintro first second firstMember secondMember different index rfl same
    exact different (eq_of_turnedIndex_eq turn firstMember secondMember same)
  rcases exists_foldlM_of_apart (fun place member => changes_turnByte turn image member) apart
    (Array.size_replicate ..) with ⟨buffer, written, size, bytes⟩
  refine ⟨buffer, written, size, ?_⟩
  intro place member
  have inside := mem_places_iff.mp member
  rcases Grid.exists_cell? inside.1.2 inside.2.2 with ⟨dot, found⟩
  have blank : (Array.replicate ((turn.sides image.width image.height).1 *
      (turn.sides image.width image.height).2) (0 : UInt8))[
        turnedIndex turn image.width image.height place]? = some 0 := by
    rw [Array.getElem?_replicate, if_pos (turnedIndex_lt turn member)]
  have changed := (bytes _).1 place member rfl
  rw [changed, blank, Grid.cellD_eq, found]
  rfl

/-- A turned picture fills its buffer, so that it is never replaced by an empty one. -/
theorem turn_eq_some (angle : Turn) (image : Grid UInt8) :
    turn angle image = some (image.turn angle) := by
  by_cases upright : angle = .upright
  · subst upright
    rfl
  rcases exists_turnBytes angle image with ⟨buffer, written, size, bytes⟩
  rw [turn, if_neg upright, bind_of_eq_some written, ofBuffer, dif_pos size, Option.some.injEq]
  refine Grid.eq_of_cell? (Grid.width_turn angle image).symm (Grid.height_turn angle image).symm ?_
  intro x y column row
  rw [Grid.width_turn] at column
  rw [Grid.height_turn] at row
  -- The byte of this place was written when the cell that it comes from was visited.
  obtain ⟨inside, lands⟩ := angle.source_bounds column row
  have byte := bytes (angle.source image.width image.height x y)
    (mem_places_iff.mpr ⟨⟨Nat.zero_le _, inside.1⟩, Nat.zero_le _, inside.2⟩)
  rw [turnedIndex, lands] at byte
  rw [Grid.cell?_turn angle image column row, ← byte]
  exact if_pos column

/-! ## Placing -/

/-- Where a point on the edges of a rectangle lands, in numbers of 32 bits. -/
def point (turn : Turn) (width height x y : Int) : Option (Int × Int) :=
  match turn with
  | .upright => some (x, y)
  | .left => do
    let row ← signed 32 (width - x)
    return (y, row)
  | .half => do
    let column ← signed 32 (width - x)
    let row ← signed 32 (height - y)
    return (column, row)
  | .right => do
    let column ← signed 32 (height - y)
    return (column, x)

/-- Where the top left corner of a turned stamp stands. -/
def position (stamp : Stamp) (turn : Turn) (origin : Origin) : Option (Int × Int) :=
  match origin.anchor with
  | .topLeft => some (origin.x, origin.y)
  | .baseline => do
    let width ← signed 32 stamp.mask.width
    let height ← signed 32 stamp.mask.height
    let baseline ← signed 32 stamp.baseline
    let foot ← point turn width height 0 baseline
    let x ← signed 32 (origin.x - foot.1)
    let y ← signed 32 (origin.y - foot.2)
    return (x, y)

/-- A stamp is no larger than the widest bitmap. -/
structure Fits (stamp : Stamp) : Prop where
  width : stamp.mask.width ≤ 2 ^ 27
  height : stamp.mask.height ≤ 2 ^ 27
  baseline : stamp.baseline ≤ 2 ^ 27

/-- A point of a bounded rectangle lands on a point of one. -/
theorem point_eq_some (turn : Turn) {width height x y : Nat} (widthLe : width ≤ 2 ^ 27)
    (heightLe : height ≤ 2 ^ 27) (xLe : x ≤ 2 ^ 27) (yLe : y ≤ 2 ^ 27) :
    point turn width height x y = some (turn.point width height x y) ∧
      (turn.point width height x y).1.natAbs ≤ 2 ^ 27 ∧
        (turn.point width height x y).2.natAbs ≤ 2 ^ 27 := by
  have columns : ((width : Int) - x).natAbs ≤ 2 ^ 27 := by omega
  have rows : ((height : Int) - y).natAbs ≤ 2 ^ 27 := by omega
  have column : signed 32 ((width : Int) - x) = some ((width : Int) - x) :=
    signed_of_bounds (by omega) (by omega)
  have row : signed 32 ((height : Int) - y) = some ((height : Int) - y) :=
    signed_of_bounds (by omega) (by omega)
  cases turn with
  | upright =>
      exact ⟨rfl, xLe, yLe⟩
  | left =>
      exact ⟨bind_of_eq_some column, yLe, columns⟩
  | half =>
      exact ⟨(bind_of_eq_some column).trans (bind_of_eq_some row), columns, rows⟩
  | right =>
      exact ⟨bind_of_eq_some row, rows, xLe⟩

/-- The place of a stamp is known in numbers of 32 bits, and is bounded. -/
theorem position_eq_some {stamp : Stamp} (fits : Fits stamp) (turn : Turn) {origin : Origin}
    (wellFormed : origin.WellFormed) :
    position stamp turn origin = some (stamp.position turn origin) ∧
      (stamp.position turn origin).1.natAbs ≤ 2 ^ 28 ∧
        (stamp.position turn origin).2.natAbs ≤ 2 ^ 28 := by
  obtain ⟨x, y, anchor⟩ := origin
  have limit : maxDots = 32000 := rfl
  have xLe : x.natAbs ≤ 2 * maxDots := wellFormed.x
  have yLe : y.natAbs ≤ 2 * maxDots := wellFormed.y
  have widthLe := fits.width
  have heightLe := fits.height
  have baselineLe := fits.baseline
  cases anchor with
  | topLeft =>
      refine ⟨rfl, ?_, ?_⟩
      · show x.natAbs ≤ 2 ^ 28
        omega
      · show y.natAbs ≤ 2 ^ 28
        omega
  | baseline =>
      obtain ⟨landed, footX, footY⟩ :=
        point_eq_some turn widthLe heightLe (Nat.zero_le _) baselineLe
      rw [Int.natCast_zero] at landed footX footY
      refine ⟨?_, ?_, ?_⟩
      · rw [position]
        dsimp only
        rw [bind_of_eq_some (signed_of_bounds (by omega) (by omega)),
          bind_of_eq_some (signed_of_bounds (by omega) (by omega)),
          bind_of_eq_some (signed_of_bounds (by omega) (by omega)), bind_of_eq_some landed,
          bind_of_eq_some (signed_of_bounds (by omega) (by omega)),
          bind_of_eq_some (signed_of_bounds (by omega) (by omega))]
        rfl
      · show (x - (turn.point stamp.mask.width stamp.mask.height 0 stamp.baseline).1).natAbs ≤ _
        omega
      · show (y - (turn.point stamp.mask.width stamp.mask.height 0 stamp.baseline).2).natAbs ≤ _
        omega

theorem eq_of_point {turn : Turn} {width height x y : Int} {found : Int × Int}
    (inRange : point turn width height x y = some found) :
    found = turn.point width height x y := by
  cases turn with
  | upright =>
      exact (Option.some.inj inRange).symm
  | left =>
      obtain ⟨row, rowFound, same⟩ := exists_of_bind inRange
      rw [← Option.some.inj same, eq_of_signed rowFound, Turn.point]
  | half =>
      obtain ⟨column, columnFound, later⟩ := exists_of_bind inRange
      obtain ⟨row, rowFound, same⟩ := exists_of_bind later
      rw [← Option.some.inj same, eq_of_signed columnFound, eq_of_signed rowFound, Turn.point]
  | right =>
      obtain ⟨column, columnFound, same⟩ := exists_of_bind inRange
      rw [← Option.some.inj same, eq_of_signed columnFound, Turn.point]

/-- The place of a stamp in numbers of 32 bits is its place, whenever they are in range. -/
theorem eq_of_position {stamp : Stamp} {turn : Turn} {origin : Origin} {found : Int × Int}
    (inRange : position stamp turn origin = some found) :
    found = stamp.position turn origin := by
  obtain ⟨x, y, anchor⟩ := origin
  cases anchor with
  | topLeft =>
      exact (Option.some.inj inRange).symm
  | baseline =>
      rw [position] at inRange
      obtain ⟨width, widthFound, inRange⟩ := exists_of_bind inRange
      obtain ⟨height, heightFound, inRange⟩ := exists_of_bind inRange
      obtain ⟨baseline, baselineFound, inRange⟩ := exists_of_bind inRange
      obtain ⟨foot, footFound, inRange⟩ := exists_of_bind inRange
      obtain ⟨left, leftFound, inRange⟩ := exists_of_bind inRange
      obtain ⟨top, topFound, same⟩ := exists_of_bind inRange
      obtain rfl := eq_of_signed widthFound
      obtain rfl := eq_of_signed heightFound
      obtain rfl := eq_of_signed baselineFound
      obtain rfl := eq_of_point footFound
      obtain rfl := eq_of_signed leftFound
      obtain rfl := eq_of_signed topFound
      exact (Option.some.inj same).symm

/-! ## Painting -/

/-- Paints a dot of a mask, if it is ink and lies on the canvas. -/
def paintDot (mask : Mask) (x y : Int) (paint : Paint) (canvas : Canvas) (place : Nat × Nat) :
    Option Canvas := do
  let coverage ← mask.cell? place.1 place.2
  if coverage < inkThreshold then some canvas
  else
    let column ← signed 64 (x + place.1)
    let row ← signed 64 (y + place.2)
    if column < 0 ∨ row < 0 ∨ canvas.width ≤ column ∨ canvas.height ≤ row then some canvas
    else put canvas column.toNat row.toNat paint.apply

/-- Paints a mask onto a canvas. -/
def paintOnto (mask : Mask) (canvas : Canvas) (x y : Int) (paint : Paint) : Option Canvas :=
  (places 0 0 mask.width mask.height).foldlM (paintDot mask x y paint) canvas

theorem changes_paintDot {mask : Mask} {x y : Int} (paint : Paint) {width height : Nat}
    {place : Nat × Nat} (member : place ∈ places 0 0 mask.width mask.height)
    (columnFits : x.natAbs + mask.width < 2 ^ 63) (rowFits : y.natAbs + mask.height < 2 ^ 63) :
    Changes cellAt (HasSides width height) (paintDot mask x y paint · place)
      (fun spot => inkThreshold ≤ mask.cellD place.1 place.2 0 ∧
        (spot.1 : Int) = x + place.1 ∧ (spot.2 : Int) = y + place.2)
      paint.apply := by
  have inside := mem_places_iff.mp member
  rcases Grid.exists_cell? inside.1.2 inside.2.2 with ⟨coverage, found⟩
  have known : mask.cellD place.1 place.2 0 = coverage := by
    rw [Grid.cellD_eq, found, Option.getD_some]
  rw [known]
  by_cases faint : coverage < inkThreshold
  · refine (changes_nothing paint.apply ?_).congr_step ?_
    · intro spot covered
      exact absurd covered.1 (UInt8.not_le.mpr faint)
    · intro canvas _
      rw [paintDot, bind_of_eq_some found, if_pos faint]
  have inked : inkThreshold ≤ coverage := UInt8.not_lt.mp faint
  have column : signed 64 (x + place.1) = some (x + place.1) :=
    signed_of_bounds (by omega) (by omega)
  have row : signed 64 (y + place.2) = some (y + place.2) :=
    signed_of_bounds (by omega) (by omega)
  refine ((changes_put_clipped (x + place.1) (y + place.2) paint.apply).congr_inside ?_).congr_step
    ?_
  · intro _ _ _ _
    exact and_iff_right inked
  · intro canvas _
    rw [paintDot, bind_of_eq_some found, if_neg faint, bind_of_eq_some column,
      bind_of_eq_some row]

/-- Painting changes no dot that is not there. -/
theorem paintOnto_eq_some {mask : Mask} (canvas : Canvas) {x y : Int} (paint : Paint)
    (columnFits : x.natAbs + mask.width < 2 ^ 63) (rowFits : y.natAbs + mask.height < 2 ^ 63) :
    paintOnto mask canvas x y paint = some (mask.paintOnto canvas x y paint) := by
  refine foldlM_eq_some_of_apart
    (fun place member => changes_paintDot paint member columnFits rowFits) ?_ ⟨rfl, rfl⟩ ?_ ?_
  · refine (nodup_places _ _ _ _).imp ?_
    rintro ⟨firstX, firstY⟩ ⟨secondX, secondY⟩ different spot ⟨-, firstColumn, firstRow⟩
      ⟨-, secondColumn, secondRow⟩
    apply different
    rw [Prod.mk.injEq]
    omega
  · rintro ⟨placeX, placeY⟩ member column row - - ⟨inked, columnIs, rowIs⟩
    have inside := mem_places_iff.mp member
    have covered : mask.covers x y column row = true := by
      have columnOf : ((column : Int) - x).toNat = placeX := by omega
      have rowOf : ((row : Int) - y).toNat = placeY := by omega
      rw [Mask.covers, decide_eq_true_iff, columnOf, rowOf]
      exact ⟨by omega, by omega, by omega, by omega, inked⟩
    rw [Mask.cell?_paintOnto, covered]
    rfl
  · intro column row _ _ nowhere
    have uncovered : mask.covers x y column row = false := by
      rw [Mask.covers, decide_eq_false_iff_not]
      rintro ⟨leftLe, right, topLe, bottom, inked⟩
      refine nowhere (((column : Int) - x).toNat, ((row : Int) - y).toNat)
        (mem_places_iff.mpr ?_) ⟨inked, ?_, ?_⟩ <;> omega
    rw [Mask.cell?_paintOnto, uncovered]
    simp

end LabelPress.Checked
