import LabelPress.Proofs.Drawing.CheckedBars
import LabelPress.Proofs.Qr.Sides
import LabelPress.Shapes

/-!
# Shapes stay in range

The modules of a QR symbol are numbered, and each dark one is filled as a square.  A box asks for
the nearest number between two ends, which must not have changed places: the radius of its corners
is never more than half of a side.  A bitmap is cut into rows, and the dots of each byte are counted
from its column on.  Here all of this is checked (`magnify_eq_some`, `box_eq_some`,
`bitmap_eq_some`).
-/

namespace LabelPress.Checked

/-- A step that covers exactly the ink of a blank mask makes the mask of that ink. -/
theorem Changes.eq_some_ofInk {width height : Nat} {step : Mask → Option Mask}
    {covers : Nat × Nat → Prop} {ink : Nat → Nat → Bool}
    (changes : Changes cellAt (HasSides width height) step covers fun _ => fullInk)
    (isInk : ∀ x y, x < width → y < height → (covers (x, y) ↔ ink x y = true)) :
    step (Mask.blank width height) = some (Mask.ofInk width height ink) := by
  refine Changes.eq_some changes ⟨rfl, rfl⟩ ?_ ?_
  · intro x y (column : x < width) (row : y < height) covered
    rw [Mask.cell?_ofInk ink column row, if_pos ((isInk x y column row).mp covered), Mask.blank,
      Grid.cell?_replicate 0 column row]
    rfl
  · intro x y (column : x < width) (row : y < height) uncovered
    have noInk : ¬ink x y = true := fun inked => uncovered ((isInk x y column row).mpr inked)
    rw [Mask.cell?_ofInk ink column row, if_neg noInk, Mask.blank,
      Grid.cell?_replicate 0 column row]

/-! ## QR symbols -/

/-- Fills a dark module as a square at the place of its number. -/
def fillModule (count scale : Nat) (mask : Mask) (entry : Bool × Nat) : Option Mask :=
  if entry.1 then do
    let number ← unsigned 32 entry.2
    let place ← divide number count
    let x ← unsigned 32 (place.2 * scale)
    let y ← unsigned 32 (place.1 * scale)
    fillRect mask x y scale scale
  else some mask

/-- The modules of a symbol, each as a square of dots. -/
def magnify (modules : Grid Bool) (magnification : Nat) : Option Mask := do
  let scale := max magnification 1
  let count ← unsigned 32 modules.width
  let size ← unsigned 32 (count * scale)
  let mask ← blank size size
  modules.cells.toList.zipIdx.foldlM (fillModule count scale) mask

theorem changes_fillModule {count scale size : Nat} (countPos : 0 < count)
    (countLe : count ≤ 177) (scaleLe : scale ≤ 10) (sizeLt : size < 2 ^ 32)
    (entry : Bool × Nat) (inSymbol : entry.2 < count * count) :
    Changes cellAt (HasSides size size) (fillModule count scale · entry)
      (fun place => entry.1 = true ∧
        InRect (entry.2 % count * scale) (entry.2 / count * scale) scale scale place)
      (fun _ => fullInk) := by
  obtain ⟨dark, number⟩ := entry
  cases dark with
  | false =>
      exact changes_nothing _ fun place covered => Bool.false_ne_true covered.1
  | true =>
      have small : count * count ≤ 177 * 177 := Nat.mul_le_mul countLe countLe
      have numberLt : number < 2 ^ 32 := Nat.lt_of_lt_of_le inSymbol (by omega)
      have column : number % count * scale < 2 ^ 32 := by
        have columnLt := Nat.mod_lt number countPos
        have product : number % count * scale ≤ 177 * 10 := Nat.mul_le_mul (by omega) scaleLe
        omega
      have row : number / count * scale < 2 ^ 32 := by
        have rowLt : number / count < count := Nat.div_lt_of_lt_mul inSymbol
        have product : number / count * scale ≤ 177 * 10 := Nat.mul_le_mul (by omega) scaleLe
        omega
      have filled := changes_fillRect sizeLt sizeLt (number % count * scale)
        (number / count * scale) scale scale
      refine (filled.congr_inside fun x y _ _ => and_iff_right rfl).congr_step ?_
      intro mask _
      rw [fillModule, if_pos rfl, bind_of_eq_some (unsigned_of_lt numberLt),
        bind_of_eq_some (divide_of_pos countPos), bind_of_eq_some (unsigned_of_lt column),
        bind_of_eq_some (unsigned_of_lt row)]

theorem lt_of_mem_zipIdx_cells {modules : Grid Bool} {size : Nat}
    (square : Qr.IsSquare size modules) {entry : Bool × Nat}
    (member : entry ∈ modules.cells.toList.zipIdx) : entry.2 < size * size := by
  have inCells := (List.getElem?_eq_some_iff.mp (List.mem_zipIdx_iff_getElem?.mp member)).1
  rw [Array.length_toList, modules.size_cells, square.1, square.2] at inCells
  exact inCells

/-- The squares of the dark modules make up the dots whose module is dark. -/
theorem dark_iff {modules : Grid Bool} {size scale x y : Nat} (square : Qr.IsSquare size modules)
    (scalePos : 0 < scale) (column : x / scale < size) (row : y / scale < size) :
    (∃ entry ∈ modules.cells.toList.zipIdx, entry.1 = true ∧
      InRect (entry.2 % size * scale) (entry.2 / size * scale) scale scale (x, y)) ↔
      modules.cellD (x / scale) (y / scale) false = true := by
  have sizePos : 0 < size := Nat.zero_lt_of_lt column
  rw [Grid.cellD_eq]
  constructor
  · rintro ⟨⟨dark, number⟩, member, isDark, inColumns, inRows⟩
    have inCells : number < modules.cells.size := by
      rw [modules.size_cells, square.1, square.2]
      exact lt_of_mem_zipIdx_cells square member
    have found := List.mem_zipIdx_iff_getElem?.mp member
    rw [Array.getElem?_toList, Grid.getElem?_cells _ inCells, square.1] at found
    have sameColumn : x / scale = number % size :=
      Nat.div_eq_of_lt_le inColumns.1 (by rw [Nat.succ_mul]; exact inColumns.2)
    have sameRow : y / scale = number / size :=
      Nat.div_eq_of_lt_le inRows.1 (by rw [Nat.succ_mul]; exact inRows.2)
    rw [sameColumn, sameRow, found]
    exact isDark
  · intro dark
    rcases Grid.exists_cell? (square.1.symm ▸ column) (square.2.symm ▸ row) with ⟨module, found⟩
    rw [found, Option.getD_some] at dark
    subst dark
    rw [Grid.cell?, square.1, if_pos column] at found
    have sameColumn : (y / scale * size + x / scale) % size = x / scale := by
      rw [Nat.add_comm, Nat.add_mul_mod_self_right, Nat.mod_eq_of_lt column]
    have sameRow : (y / scale * size + x / scale) / size = y / scale := by
      rw [Nat.add_comm, Nat.add_mul_div_right _ _ sizePos, Nat.div_eq_of_lt column, Nat.zero_add]
    refine ⟨(true, y / scale * size + x / scale), ?_, rfl, ?_⟩
    · rw [List.mem_zipIdx_iff_getElem?, Array.getElem?_toList]
      exact found
    · rw [sameColumn, sameRow]
      exact ⟨⟨Nat.div_mul_le_self _ _, Nat.lt_div_mul_add scalePos⟩,
        Nat.div_mul_le_self _ _, Nat.lt_div_mul_add scalePos⟩

/-- Magnifying a symbol stays in range. -/
theorem magnify_eq_some {modules : Grid Bool} {size magnification : Nat} (sizePos : 0 < size)
    (sizeLe : size ≤ 177) (square : Qr.IsSquare size modules)
    (magnificationLe : magnification ≤ 10) :
    magnify modules magnification = some (Qr.magnify modules magnification) := by
  have scalePos : 0 < max magnification 1 := by omega
  have scaleLe : max magnification 1 ≤ 10 := by omega
  rw [magnify, Qr.magnify]
  generalize max magnification 1 = scale at *
  have product : size * scale ≤ 177 * 10 := Nat.mul_le_mul sizeLe scaleLe
  have sideLt : size * scale < 2 ^ 32 := by omega
  rw [square.1, square.2, bind_of_eq_some (unsigned_of_lt (by omega)),
    bind_of_eq_some (unsigned_of_lt sideLt), bind_of_eq_some (blank_of_lt sideLt sideLt)]
  have each : ∀ entry ∈ modules.cells.toList.zipIdx, Changes cellAt
      (HasSides (size * scale) (size * scale)) (fillModule size scale · entry) _ _ :=
    fun entry member => changes_fillModule sizePos sizeLe scaleLe sideLt entry
      (lt_of_mem_zipIdx_cells square member)
  refine Changes.eq_some_ofInk (Changes.loop each) ?_
  intro x y columnLt rowLt
  have inSymbol : ∀ {place : Nat}, place < size * scale → place / scale < size := fun inside =>
    Nat.div_lt_of_lt_mul (by rw [Nat.mul_comm]; exact inside)
  exact dark_iff square scalePos (inSymbol columnLt) (inSymbol rowLt)

/-! ## Outlines -/

/-- Covers a dot if it turns out to be ink. -/
def inkDot (ink : Nat → Nat → Option Bool) (mask : Mask) (place : Nat × Nat) : Option Mask := do
  let inked ← ink place.1 place.2
  if inked then put mask place.1 place.2 fun _ => fullInk else some mask

/-- A mask that is made dot by dot; each dot is decided by checked steps. -/
def ofInk (width height : Nat) (ink : Nat → Nat → Option Bool) : Option Mask := do
  let mask ← blank width height
  (places 0 0 width height).foldlM (inkDot ink) mask

theorem ofInk_eq_some {width height : Nat} {checked : Nat → Nat → Option Bool}
    {ink : Nat → Nat → Bool} (widthLt : width < 2 ^ 32) (heightLt : height < 2 ^ 32)
    (decided : ∀ x y, checked x y = some (ink x y)) :
    ofInk width height checked = some (Mask.ofInk width height ink) := by
  have each : ∀ place ∈ places 0 0 width height, Changes cellAt (HasSides width height)
      (inkDot checked · place) (fun spot => ink place.1 place.2 = true ∧ spot = place)
      (fun _ => fullInk) := by
    intro place member
    have inside := mem_places_iff.mp member
    simp only [inkDot, decided, Option.bind_eq_bind, Option.bind_some]
    cases ink place.1 place.2 with
    | false =>
        exact changes_nothing _ fun spot covered => Bool.false_ne_true covered.1
    | true =>
        exact (changes_put _ inside.1.2 inside.2.2).congr_inside fun x y _ _ => and_iff_right rfl
  rw [ofInk, bind_of_eq_some (blank_of_lt widthLt heightLt)]
  refine Changes.eq_some_ofInk (Changes.loop each) ?_
  intro x y column row
  constructor
  · rintro ⟨place, -, inked, rfl⟩
    exact inked
  · intro inked
    exact ⟨(x, y), mem_places_iff.mpr ⟨⟨Nat.zero_le x, column⟩, Nat.zero_le y, row⟩, inked, rfl⟩

/-- The number from `low` to `high` that is nearest to a number; the ends must be in order. -/
def nearest (low high number : Int) : Option Int :=
  if low ≤ high then some (RoundedRect.nearest low high number) else none

/-- Whether a point lies inside a rounded rectangle. -/
def contains (rect : RoundedRect) (x y : Int) : Option Bool :=
  if x < rect.left ∨ rect.right < x ∨ y < rect.top ∨ rect.bottom < y then some false
  else if rect.radius ≤ 0 then some true
  else do
    let centreX ← nearest (rect.left + rect.radius) (rect.right - rect.radius) x
    let centreY ← nearest (rect.top + rect.radius) (rect.bottom - rect.radius) y
    return (x - centreX) * (x - centreX) + (y - centreY) * (y - centreY) ≤
      rect.radius * rect.radius

/-- The outline of a box. -/
def box (width height thickness rounding : Nat) : Option Mask :=
  ofInk width height fun x y => do
    let outer ← contains (Shapes.boxOuter width height rounding) (Shapes.middle x) (Shapes.middle y)
    let inner ← contains (Shapes.boxInner width height thickness rounding) (Shapes.middle x)
      (Shapes.middle y)
    return outer && !inner

/-- The rounding of two corners takes no more than the side between them. -/
def CornersFit (rect : RoundedRect) : Prop :=
  0 < rect.radius →
    rect.left + rect.radius ≤ rect.right - rect.radius ∧
      rect.top + rect.radius ≤ rect.bottom - rect.radius

theorem contains_eq_some {rect : RoundedRect} (cornersFit : CornersFit rect) (x y : Int) :
    contains rect x y = some (rect.contains x y) := by
  unfold contains RoundedRect.contains
  split
  · rfl
  · split
    · rfl
    · next rounded =>
        have fits := cornersFit (by omega)
        rw [nearest, if_pos fits.1, nearest, if_pos fits.2]
        rfl

/-- The rounding of a box takes at most half of the shorter side. -/
theorem boxRadius_le (width height rounding : Nat) :
    Shapes.boxRadius width height rounding ≤ 8 * width ∧
      Shapes.boxRadius width height rounding ≤ 8 * height := by
  have steps : min rounding 8 ≤ 8 := Nat.min_le_right _ _
  have byWidth : min rounding 8 * min width height ≤ 8 * width :=
    Nat.mul_le_mul steps (Nat.min_le_left _ _)
  have byHeight : min rounding 8 * min width height ≤ 8 * height :=
    Nat.mul_le_mul steps (Nat.min_le_right _ _)
  have radius : Shapes.boxRadius width height rounding =
      ((min rounding 8 * min width height : Nat) : Int) := by
    rw [Shapes.boxRadius]
    push_cast
    rfl
  omega

theorem cornersFit_boxOuter (width height rounding : Nat) :
    CornersFit (Shapes.boxOuter width height rounding) := by
  have radiusLe := boxRadius_le width height rounding
  simp only [CornersFit, Shapes.boxOuter]
  omega

/-- Both the inner edge and its corners shrink by the thickness, so that they still fit. -/
theorem cornersFit_boxInner (width height thickness rounding : Nat) :
    CornersFit (Shapes.boxInner width height thickness rounding) := by
  have radiusLe := boxRadius_le width height rounding
  simp only [CornersFit, Shapes.boxInner]
  omega

theorem box_eq_some {width height : Nat} (thickness rounding : Nat) (widthLt : width < 2 ^ 32)
    (heightLt : height < 2 ^ 32) :
    box width height thickness rounding = some (Shapes.box width height thickness rounding) := by
  refine ofInk_eq_some widthLt heightLt ?_
  intro x y
  rw [bind_of_eq_some (contains_eq_some (cornersFit_boxOuter width height rounding) _ _),
    bind_of_eq_some (contains_eq_some (cornersFit_boxInner width height thickness rounding) _ _)]
  rfl

/-- The outline of an ellipse. -/
def ellipse (width height thickness : Nat) : Option Mask :=
  ofInk width height fun x y => some (Shapes.ellipseInk width height thickness x y)

theorem ellipse_eq_some {width height : Nat} (thickness : Nat) (widthLt : width < 2 ^ 32)
    (heightLt : height < 2 ^ 32) :
    ellipse width height thickness = some (Shapes.ellipse width height thickness) :=
  ofInk_eq_some widthLt heightLt fun _ _ => rfl

/-! ## Bitmaps -/

/-- Bytes in pieces of the same size, the last one perhaps shorter; no piece is empty. -/
def chunks (size : Nat) (data : Array UInt8) : Option (List (Array UInt8)) :=
  if size = 0 then none
  else some ((List.range ((data.size + size - 1) / size)).map fun number =>
    data.extract (number * size) ((number + 1) * size))

/-- Covers the dots of a byte that stands in the given column of bytes. -/
def drawByte (row : Nat) (mask : Mask) (byte : UInt8 × Nat) : Option Mask :=
  (List.range 8).foldlM
    (fun mask bit => do
      let shift ← minus 7 bit
      if byte.1.toNat.testBit shift then
        let start ← unsigned 32 (byte.2 * 8)
        let x ← unsigned 32 (start + bit)
        put mask x row fun _ => fullInk
      else some mask)
    mask

/-- Covers the dots of a row of bytes. -/
def drawRow (mask : Mask) (row : Array UInt8 × Nat) : Option Mask :=
  row.1.toList.zipIdx.foldlM (drawByte row.2) mask

/-- A bitmap; rows of data behind the last one are left out. -/
def bitmap (rowBytes rows : Nat) (data : Array UInt8) : Option Mask := do
  let width ← unsigned 32 (rowBytes * 8)
  let mask ← blank width rows
  let rowsOfData ← chunks rowBytes data
  (rowsOfData.take rows).zipIdx.foldlM drawRow mask

theorem changes_drawByte {width height row : Nat} (byte : UInt8 × Nat) (widthLt : width < 2 ^ 32)
    (columnFits : byte.2 * 8 + 8 ≤ width) (rowLt : row < height) :
    Changes cellAt (HasSides width height) (drawByte row · byte)
      (fun place => ∃ bit ∈ List.range 8,
        byte.1.toNat.testBit (7 - bit) = true ∧ place = (byte.2 * 8 + bit, row))
      (fun _ => fullInk) := by
  refine Changes.loop fun bit member => ?_
  have bitLt := List.mem_range.mp member
  cases set : byte.1.toNat.testBit (7 - bit) with
  | false =>
      refine (changes_nothing _ fun place covered => ?_).congr_step fun mask _ => ?_
      · exact Bool.false_ne_true covered.1
      · rw [bind_of_eq_some (minus_of_le (by omega)), set]
        rfl
  | true =>
      have dot : Changes cellAt (HasSides width height)
          (fun mask : Mask => put mask (byte.2 * 8 + bit) row fun _ => fullInk) _ _ :=
        changes_put _ (by omega) rowLt
      refine (dot.congr_inside fun x y _ _ => and_iff_right rfl).congr_step fun mask _ => ?_
      rw [bind_of_eq_some (minus_of_le (by omega)), set, if_pos rfl,
        bind_of_eq_some (unsigned_of_lt (by omega)), bind_of_eq_some (unsigned_of_lt (by omega))]

/-- A bit that is set in a numbered row of bytes has its dot at a place. -/
def RowInk (row : Array UInt8 × Nat) (place : Nat × Nat) : Prop :=
  ∃ byte ∈ row.1.toList.zipIdx, ∃ bit ∈ List.range 8,
    byte.1.toNat.testBit (7 - bit) = true ∧ place = (byte.2 * 8 + bit, row.2)

theorem changes_drawRow {width height : Nat} (row : Array UInt8 × Nat) (widthLt : width < 2 ^ 32)
    (rowFits : row.1.size * 8 ≤ width) (rowLt : row.2 < height) :
    Changes cellAt (HasSides width height) (drawRow · row) (RowInk row) (fun _ => fullInk) := by
  refine Changes.loop fun byte member => changes_drawByte byte widthLt ?_ rowLt
  have inRow := (List.getElem?_eq_some_iff.mp (List.mem_zipIdx_iff_getElem?.mp member)).1
  rw [Array.length_toList] at inRow
  omega

/-- Full rows of data are found by their number. -/
theorem chunks_eq_some {rowBytes rows : Nat} {data : Array UInt8}
    (fits : FitsBitmap rowBytes rows data) :
    chunks rowBytes data = some ((List.range rows).map fun number =>
      data.extract (number * rowBytes) ((number + 1) * rowBytes)) := by
  have rowBytesPos := fits.rowBytesPos
  have count : (data.size + rowBytes - 1) / rowBytes = rows := by
    rw [fits.size, Nat.add_sub_assoc rowBytesPos, Nat.mul_add_div rowBytesPos,
      Nat.div_eq_of_lt (by omega), Nat.add_zero]
  rw [chunks, if_neg (by omega), count]

theorem mem_zipIdx_map_range {Row : Type} {count : Nat} {make : Nat → Row} {entry : Row × Nat} :
    entry ∈ ((List.range count).map make).zipIdx ↔ entry.2 < count ∧ entry.1 = make entry.2 := by
  rw [List.mem_zipIdx_iff_getElem?, List.getElem?_map]
  by_cases inside : entry.2 < count
  · rw [List.getElem?_range inside, Option.map_some, Option.some.injEq]
    exact ⟨fun same => ⟨inside, same.symm⟩, fun same => same.2.symm⟩
  · rw [List.getElem?_eq_none (by simpa using inside)]
    constructor
    · intro impossible
      cases impossible
    · intro within
      exact absurd within.1 inside

/-- The bytes of a row of data. -/
theorem getElem?_row {rowBytes rows : Nat} {data : Array UInt8}
    (fits : FitsBitmap rowBytes rows data) {number : Nat} (inside : number < rows) (column : Nat) :
    (data.extract (number * rowBytes) ((number + 1) * rowBytes))[column]? =
      if column < rowBytes then some (data.getD (number * rowBytes + column) 0) else none := by
  have rowEnd : (number + 1) * rowBytes ≤ data.size := by
    rw [fits.size, Nat.mul_comm]
    exact Nat.mul_le_mul_left _ inside
  have size : min ((number + 1) * rowBytes) data.size - number * rowBytes = rowBytes := by
    rw [Nat.min_eq_left rowEnd, Nat.succ_mul, Nat.add_sub_cancel_left]
  rw [Array.getElem?_extract, size]
  split
  · next within =>
      rw [Nat.succ_mul] at rowEnd
      rw [Array.getD_eq_getD_getElem?, Array.getElem?_eq_getElem (by omega)]
      rfl
  · rfl

/-- The dots of a bitmap are the bits that are set in its data. -/
theorem bitmapInk_iff {rowBytes rows : Nat} {data : Array UInt8}
    (fits : FitsBitmap rowBytes rows data) {x y : Nat} (column : x < rowBytes * 8)
    (row : y < rows) :
    (∃ bytes ∈ ((List.range rows).map fun number =>
        data.extract (number * rowBytes) ((number + 1) * rowBytes)).zipIdx,
      RowInk bytes (x, y)) ↔
      Shapes.bitmapInk rowBytes data x y = true := by
  constructor
  · rintro ⟨⟨bytes, number⟩, bytesMember, ⟨byte, place⟩, byteMember, bit, bitMember, set, same⟩
    obtain ⟨rfl, rfl⟩ := Prod.mk.inj same
    have bytesAre := (mem_zipIdx_map_range.mp bytesMember).2
    dsimp only at bytesAre
    subst bytesAre
    have bitLt := List.mem_range.mp bitMember
    have found := List.mem_zipIdx_iff_getElem?.mp byteMember
    rw [Array.getElem?_toList, getElem?_row fits row] at found
    split at found
    · have byteIs : data.getD (y * rowBytes + place) 0 = byte := Option.some.inj found
      have placeOf : (place * 8 + bit) / 8 = place := by omega
      have bitOf : (place * 8 + bit) % 8 = bit := by omega
      rw [Shapes.bitmapInk, placeOf, bitOf, byteIs]
      exact set
    · cases found
  · intro inked
    refine ⟨(data.extract (y * rowBytes) ((y + 1) * rowBytes), y),
      mem_zipIdx_map_range.mpr ⟨row, rfl⟩,
      (data.getD (y * rowBytes + x / 8) 0, x / 8), ?_, x % 8, ?_, inked, ?_⟩
    · rw [List.mem_zipIdx_iff_getElem?, Array.getElem?_toList, getElem?_row fits row,
        if_pos (by omega)]
    · exact List.mem_range.mpr (Nat.mod_lt _ (by decide))
    · rw [Nat.div_add_mod']

theorem bitmap_eq_some {rowBytes rows : Nat} {data : Array UInt8}
    (fits : FitsBitmap rowBytes rows data) :
    bitmap rowBytes rows data = some (Shapes.bitmap rowBytes rows data) := by
  have rowBytesPos := fits.rowBytesPos
  have limit : Markup.Graphic.maxBytes = 16777216 := rfl
  have firstRow := fits.firstRow
  have rowsLe : rows - 1 ≤ rowBytes * (rows - 1) := Nat.le_mul_of_pos_left _ rowBytesPos
  have earlierRows := fits.earlierRows
  have widthLt : rowBytes * 8 < 2 ^ 32 := by omega
  rw [bitmap, bind_of_eq_some (unsigned_of_lt widthLt),
    bind_of_eq_some (blank_of_lt widthLt (by omega)), bind_of_eq_some (chunks_eq_some fits),
    List.take_of_length_le (by simp), Shapes.bitmap, Nat.mul_comm 8]
  have each : ∀ bytes ∈ ((List.range rows).map fun number =>
      data.extract (number * rowBytes) ((number + 1) * rowBytes)).zipIdx,
      Changes cellAt (HasSides (rowBytes * 8) rows) (drawRow · bytes) (RowInk bytes)
        fun _ => fullInk := by
    intro bytes member
    obtain ⟨rowLt, bytesAre⟩ := mem_zipIdx_map_range.mp member
    refine changes_drawRow bytes widthLt ?_ rowLt
    rw [bytesAre, Array.size_extract, Nat.succ_mul]
    omega
  exact Changes.eq_some_ofInk (Changes.loop each) fun x y column row =>
    bitmapInk_iff fits column row

end LabelPress.Checked
