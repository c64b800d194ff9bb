import LabelPress.Proofs.Code128.Symbols
import LabelPress.Proofs.Drawing.Checked
import LabelPress.Proofs.Ean13.Codes
import LabelPress.Proofs.Markup.WellFormed
import LabelPress.Symbology.Bars

/-!
# Bars stay in range

The modules of a barcode are looked up in tables, and bars are filled dot by dot.  Here every index
and every sum is checked.  The values of a Code 128 symbol and the digits of an EAN-13 code lie in
their tables (`code128Modules_eq_some`, `ean13Modules_eq_some`), and bars of up to `maxDots` dots
stay inside their mask, with or without a line of text (`barStamp_eq_some`).
-/

namespace LabelPress.Checked

/-! ## Rectangles -/

/-- The right or lower end of a side, the largest word at most. -/
def sideEnd (start size : Nat) : Nat :=
  min (start + size) (2 ^ 32 - 1)

/-- Covers a rectangle dot by dot; the part of it outside the mask is left out. -/
def fillRect (mask : Mask) (x y width height : Nat) : Option Mask :=
  (places x y (min (sideEnd x width) mask.width) (min (sideEnd y height) mask.height)).foldlM
    (fun mask place => put mask place.1 place.2 fun _ => fullInk) mask

/-- A place lies in a rectangle. -/
def InRect (x y width height : Nat) (place : Nat × Nat) : Prop :=
  (x ≤ place.1 ∧ place.1 < x + width) ∧ y ≤ place.2 ∧ place.2 < y + height

theorem changes_fillRect {width height : Nat} (widthLt : width < 2 ^ 32)
    (heightLt : height < 2 ^ 32) (x y rectWidth rectHeight : Nat) :
    Changes cellAt (HasSides width height) (fillRect · x y rectWidth rectHeight)
      (InRect x y rectWidth rectHeight) (fun _ => fullInk) := by
  have dots : ∀ place ∈ places x y (min (sideEnd x rectWidth) width)
      (min (sideEnd y rectHeight) height),
      Changes cellAt (HasSides width height)
        (fun mask : Mask => put mask place.1 place.2 fun _ => fullInk) (· = place)
        (fun _ => fullInk) := by
    intro place member
    have inside := mem_places_iff.mp member
    exact changes_put _ (by omega) (by omega)
  refine ((Changes.loop dots).congr_inside ?_).congr_step ?_
  · intro column row columnLt rowLt
    simp only [exists_eq_right', mem_places_iff, InRect, sideEnd]
    omega
  · rintro mask ⟨rfl, rfl⟩
    rfl

/-- Filling a rectangle never leaves the mask. -/
theorem fillRect_eq_some {mask : Mask} (widthLt : mask.width < 2 ^ 32)
    (heightLt : mask.height < 2 ^ 32) (x y width height : Nat) :
    fillRect mask x y width height = some (mask.fillRect x y width height) := by
  refine (changes_fillRect widthLt heightLt x y width height).eq_some ⟨rfl, rfl⟩ ?_ ?_
  · rintro column row - - ⟨inColumns, inRows⟩
    rw [Mask.fillRect, Grid.cell?_updateRect, if_pos (by omega)]
  · intro column row _ _ outside
    rw [Mask.fillRect, Grid.cell?_updateRect, if_neg]
    rintro ⟨leftLe, right, topLe, bottom⟩
    exact outside ⟨⟨leftLe, right⟩, topLe, bottom⟩

/-! ## Bars -/

/-- Draws a bar at the place of its number. -/
def drawBar (moduleWidth left top height : Nat) (mask : Mask) (entry : Bool × Nat) :
    Option Mask :=
  if entry.1 then do
    let number ← unsigned 32 entry.2
    let offset ← unsigned 32 (number * moduleWidth)
    let x ← unsigned 32 (left + offset)
    fillRect mask x top moduleWidth height
  else some mask

/-- Draws the bars of numbered modules. -/
def drawBars (moduleWidth left top height : Nat) (mask : Mask) (modules : List (Bool × Nat)) :
    Option Mask :=
  modules.foldlM (drawBar moduleWidth left top height) mask

theorem drawBars_zipIdx_eq_some {mask : Mask} (widthLt : mask.width < 2 ^ 32)
    (heightLt : mask.height < 2 ^ 32) {moduleWidth : Nat} (moduleWidthPos : 0 < moduleWidth)
    (left top height : Nat) (modules : List Bool) (first : Nat)
    (fits : left + (first + modules.length) * moduleWidth < 2 ^ 32) :
    drawBars moduleWidth left top height mask (modules.zipIdx first) =
      some (Bars.draw moduleWidth (left + first * moduleWidth) top height mask modules) := by
  -- The place of a bar is a product on one side and a running sum on the other.
  induction modules generalizing mask first with
  | nil =>
      rfl
  | cons bar modules ih =>
      have next : first + 1 + modules.length = first + (bar :: modules).length := by
        rw [List.length_cons]
        omega
      have wide : (first + 1) * moduleWidth ≤ (first + (bar :: modules).length) * moduleWidth :=
        Nat.mul_le_mul_right _ (by rw [← next]; omega)
      rw [Nat.succ_mul] at wide
      have number : first ≤ first * moduleWidth := Nat.le_mul_of_pos_right _ moduleWidthPos
      have later := fun (mask : Mask) (widthLt : mask.width < 2 ^ 32)
          (heightLt : mask.height < 2 ^ 32) => ih widthLt heightLt (first + 1) (next ▸ fits)
      rw [Nat.succ_mul, ← Nat.add_assoc] at later
      rw [List.zipIdx_cons, drawBars, List.foldlM_cons, Bars.draw]
      cases bar with
      | false =>
          exact later mask widthLt heightLt
      | true =>
          simp only [drawBar, if_true, unsigned_of_lt (show first < 2 ^ 32 by omega),
            unsigned_of_lt (show first * moduleWidth < 2 ^ 32 by omega),
            unsigned_of_lt (show left + first * moduleWidth < 2 ^ 32 by omega),
            fillRect_eq_some widthLt heightLt, Option.bind_eq_bind, Option.bind_some]
          exact later _ widthLt heightLt

theorem drawBars_eq_some {mask : Mask} (widthLt : mask.width < 2 ^ 32)
    (heightLt : mask.height < 2 ^ 32) {moduleWidth : Nat} (moduleWidthPos : 0 < moduleWidth)
    {left : Nat} (top height : Nat) {modules : List Bool}
    (fits : left + modules.length * moduleWidth < 2 ^ 32) :
    drawBars moduleWidth left top height mask modules.zipIdx =
      some (Bars.draw moduleWidth left top height mask modules) := by
  have drawn := drawBars_zipIdx_eq_some widthLt heightLt moduleWidthPos left top height modules 0
    (by rw [Nat.zero_add]; exact fits)
  rw [Nat.zero_mul, Nat.add_zero] at drawn
  exact drawn

/-! ## Modules of a Code 128 symbol -/

/-- The modules of a value; it is a byte for which there is a pattern. -/
def modulesOfValue (value : Nat) : Option (List Bool) := do
  let value ← unsigned 8 value
  let widths ← Code128.patterns[value]?
  return Code128.modulesOfWidths true widths

/-- The modules of a symbol and of the stop pattern. -/
def code128Modules (symbol : Code128.Symbol) : Option (List Bool) := do
  let modules ← (symbol.values ++ [Code128.stop]).mapM modulesOfValue
  return modules.flatten

/-- A list of items each of which has a result. -/
theorem mapM_eq_some {Item Result : Type} {read : Item → Option Result} {result : Item → Result}
    {items : List Item} (each : ∀ item ∈ items, read item = some (result item)) :
    items.mapM read = some (items.map result) := by
  induction items with
  | nil =>
      rfl
  | cons item items ih =>
      rw [List.mapM_cons, each item List.mem_cons_self,
        ih fun other member => each other (List.mem_cons_of_mem item member)]
      rfl

/-- Every value of a symbol has a pattern. -/
theorem code128Modules_eq_some {data : List Char} {mode : Code128Mode} {symbol : Code128.Symbol}
    (encoded : Code128.encode data mode = .ok symbol) :
    code128Modules symbol = some symbol.modules := by
  have patterns : Code128.patterns.size = 107 := by decide
  have each : ∀ value ∈ symbol.values ++ [Code128.stop],
      modulesOfValue value = some (Code128.modulesOfValue value) := by
    intro value member
    have inTable : value ≤ 106 := by
      rcases List.mem_append.mp member with member | member
      · exact Nat.le_of_lt (Code128.value_lt_of_encode encoded value member)
      · exact Nat.le_of_eq (List.mem_singleton.mp member)
    have found : Code128.patterns[value]? = some (Code128.patterns.getD value []) := by
      rw [Array.getD_eq_getD_getElem?, Array.getElem?_eq_getElem (by omega)]
      rfl
    rw [modulesOfValue, bind_of_eq_some (unsigned_of_lt (by omega)), bind_of_eq_some found]
    rfl
  rw [code128Modules, mapM_eq_some each, Code128.Symbol.modules, List.flatMap_def]
  rfl

/-! ## Modules of an EAN-13 code -/

/-- What completes a sum to a multiple of ten. -/
def complement (sum : Nat) : Option Nat :=
  if sum % 10 = 0 then some 0 else minus 10 (sum % 10)

/-- Adds a digit with the weight of its number; weights alternate, and no sum leaves a word. -/
def addWeighted (sum : Nat) (entry : Nat × Nat) : Option Nat :=
  if entry.2 % 2 = 0 then unsigned 32 (sum + entry.1)
  else do
    let tripled ← unsigned 32 (entry.1 * 3)
    unsigned 32 (sum + tripled)

/-- The check digit, which is written as a character behind the other digits. -/
def checkDigit (digits : List Nat) : Option Nat := do
  let sum ← digits.zipIdx.foldlM addWeighted 0
  let check ← complement sum
  let _ ← unsigned 8 ('0'.toNat + check)
  return check

/-- The thirteen digits that data stand for. -/
def ean13Digits (data : List Char) : Option (Except Ean13.Fault (List Nat)) :=
  match data.find? (!Text.isDecimalDigit ·) with
  | some character => some (.error ⟨character⟩)
  | none => do
    let digits := Ean13.payload (data.filterMap Text.decimalDigit?)
    let check ← checkDigit digits
    return .ok (digits ++ [check])

/-- An entry of a table of ten. -/
def tenth {Entry : Type} (table : Nat → Entry) (index : Nat) : Option Entry :=
  if index < 10 then some (table index) else none

/-- The modules of a digit in the left half, and whether they are even ones. -/
def leftModules (entry : Nat × Bool) : Option (List Bool) := do
  let odd ← tenth Ean13.leftOdd entry.1
  return if entry.2 then (odd.map (!·)).reverse else odd

/-- The modules of a digit in the right half. -/
def rightModules (digit : Nat) : Option (List Bool) := do
  let odd ← tenth Ean13.leftOdd digit
  return odd.map (!·)

/-- The modules of a code; every digit is looked up in a table of ten. -/
def ean13Modules : List Nat → Option (List Bool)
  | [] => some []
  | first :: digits => do
    let parities ← tenth Ean13.evenParity first
    let left ← ((digits.take 6).zip parities).mapM leftModules
    let right ← (digits.drop 6).mapM rightModules
    return Ean13.guard ++ left.flatten ++ Ean13.centre ++ right.flatten ++ Ean13.guard

theorem foldlM_addWeighted_eq_some {digits : List Nat} (small : ∀ digit ∈ digits, digit < 10)
    (first sum : Nat) (fits : sum + 27 * digits.length < 2 ^ 32) :
    (digits.zipIdx first).foldlM addWeighted sum =
      some (sum + Ean13.weightedSum (if first % 2 = 0 then 1 else 3) digits) := by
  induction digits generalizing first sum with
  | nil =>
      rfl
  | cons digit digits ih =>
      have digitLt := small digit List.mem_cons_self
      have laterSmall := fun other member => small other (List.mem_cons_of_mem digit member)
      rw [List.length_cons] at fits
      rw [List.zipIdx_cons, List.foldlM_cons, addWeighted, Ean13.weightedSum]
      by_cases even : first % 2 = 0
      · have odd : ¬(first + 1) % 2 = 0 := by omega
        have later := ih laterSmall (first + 1) (sum + digit) (by omega)
        rw [if_neg odd] at later
        rw [if_pos even, if_pos even, bind_of_eq_some (unsigned_of_lt (by omega)), Nat.one_mul,
          ← Nat.add_assoc]
        exact later
      · have odd : (first + 1) % 2 = 0 := by omega
        have later := ih laterSmall (first + 1) (sum + digit * 3) (by omega)
        rw [if_pos odd] at later
        rw [if_neg even, if_neg even, bind_of_eq_some (unsigned_of_lt (by omega)),
          bind_of_eq_some (unsigned_of_lt (by omega)), Nat.mul_comm 3, ← Nat.add_assoc]
        exact later

theorem complement_eq_some (sum : Nat) : complement sum = some ((10 - sum % 10) % 10) := by
  unfold complement
  by_cases whole : sum % 10 = 0
  · rw [if_pos whole, whole]
  · have digit : 10 - sum % 10 < 10 := by omega
    rw [if_neg whole, minus_of_le (by omega), Nat.mod_eq_of_lt digit]

theorem checkDigit_eq_some {digits : List Nat} (small : ∀ digit ∈ digits, digit < 10)
    (fits : digits.length ≤ 12) : checkDigit digits = some (Ean13.checkDigit digits) := by
  have byte : '0'.toNat + Ean13.checkDigit digits < 2 ^ 8 := by
    have lastDigit : Ean13.checkDigit digits < 10 := Nat.mod_lt _ (by decide)
    have zero : '0'.toNat = 48 := rfl
    omega
  have sum := foldlM_addWeighted_eq_some small 0 0 (by omega)
  rw [Nat.zero_add, if_pos (Nat.zero_mod 2)] at sum
  have complemented : complement (Ean13.weightedSum 1 digits) = some (Ean13.checkDigit digits) :=
    complement_eq_some _
  rw [checkDigit, bind_of_eq_some sum, bind_of_eq_some complemented,
    bind_of_eq_some (unsigned_of_lt byte)]
  rfl

theorem ean13Digits_eq_some (data : List Char) :
    ean13Digits data = some (Ean13.normalize data) := by
  rw [ean13Digits, Ean13.normalize]
  cases data.find? (!Text.isDecimalDigit ·) with
  | some character =>
      rfl
  | none =>
      dsimp only
      rw [checkDigit_eq_some (Ean13.digit_lt_of_data data)
        (Nat.le_of_eq (Ean13.length_payload _))]
      rfl

theorem ean13Modules_eq_some {digits : List Nat} (small : ∀ digit ∈ digits, digit < 10) :
    ean13Modules digits = some (Ean13.modules digits) := by
  cases digits with
  | nil =>
      rfl
  | cons first digits =>
      have left : ∀ entry ∈ (digits.take 6).zip (Ean13.evenParity first), leftModules entry =
          some (if entry.2 then Ean13.leftEven entry.1 else Ean13.leftOdd entry.1) := by
        intro entry member
        have digit := List.mem_of_mem_take (List.of_mem_zip member).1
        rw [leftModules, tenth, if_pos (small _ (List.mem_cons_of_mem first digit))]
        rfl
      have right : ∀ digit ∈ digits.drop 6, rightModules digit = some (Ean13.right digit) := by
        intro digit member
        have inCode := List.mem_cons_of_mem first (List.mem_of_mem_drop member)
        rw [rightModules, tenth, if_pos (small _ inCode)]
        rfl
      rw [ean13Modules, tenth, if_pos (small first List.mem_cons_self)]
      show (((digits.take 6).zip (Ean13.evenParity first)).mapM _ >>= fun left =>
        (digits.drop 6).mapM _ >>= fun right => some (Ean13.guard ++ left.flatten ++
          Ean13.centre ++ right.flatten ++ Ean13.guard)) = _
      rw [mapM_eq_some left, mapM_eq_some right]
      rfl

/-! ## Bars with a line of text -/

/-- Merges a dot of a mask into another one, if it lies there; more coverage wins. -/
def overlayDot (merged : Mask) (x y : Nat) (mask : Mask) (place : Nat × Nat) : Option Mask := do
  let coverage ← merged.cell? place.1 place.2
  let column ← unsigned 32 (x + place.1)
  let row ← unsigned 32 (y + place.2)
  if column < mask.width ∧ row < mask.height then put mask column row (max · coverage)
  else some mask

/-- Merges a mask into another one dot by dot. -/
def overlay (mask merged : Mask) (x y : Nat) : Option Mask :=
  (places 0 0 merged.width merged.height).foldlM (overlayDot merged x y) mask

theorem overlay_eq_some (mask : Mask) {merged : Mask} {x y : Nat}
    (widthFits : x + merged.width ≤ 2 ^ 32) (heightFits : y + merged.height ≤ 2 ^ 32) :
    overlay mask merged x y = some (mask.overlay merged x y) := by
  have each : ∀ place ∈ places 0 0 merged.width merged.height,
      Changes cellAt (HasSides mask.width mask.height) (overlayDot merged x y · place)
        (· = (x + place.1, y + place.2)) (max · (merged.cellD place.1 place.2 0)) := by
    intro place member
    have inside := mem_places_iff.mp member
    rcases Grid.exists_cell? inside.1.2 inside.2.2 with ⟨coverage, found⟩
    refine (changes_put_inside _ _ _).congr_step ?_
    intro mask _
    rw [overlayDot, bind_of_eq_some found, bind_of_eq_some (unsigned_of_lt (by omega)),
      bind_of_eq_some (unsigned_of_lt (by omega)), Grid.cellD_eq, found, Option.getD_some]
  refine foldlM_eq_some_of_apart each ?_ ⟨rfl, rfl⟩ ?_ ?_
  · refine (nodup_places _ _ _ _).imp ?_
    rintro ⟨firstX, firstY⟩ ⟨secondX, secondY⟩ different place rfl same
    apply different
    rw [Prod.mk.injEq] at same ⊢
    omega
  · rintro ⟨column, row⟩ member _ _ - - ⟨⟩
    have inside := mem_places_iff.mp member
    rw [Mask.overlay, Grid.cell?_updateRect, if_pos (by omega), Nat.add_sub_cancel_left,
      Nat.add_sub_cancel_left]
  · intro column row _ _ nowhere
    rw [Mask.overlay, Grid.cell?_updateRect, if_neg]
    rintro ⟨leftLe, right, topLe, bottom⟩
    refine nowhere (column - x, row - y) (mem_places_iff.mpr ?_) ?_
    · omega
    · rw [Prod.mk.injEq]
      omega

/--
The dots of modules side by side, a number of 64 bits.  There is no memory for `2 ^ 60` modules, so
that their product is not looked at.
-/
def dotsOfModules (modules moduleWidth : Nat) : Option Nat :=
  if modules < 2 ^ 60 then unsigned 64 (modules * moduleWidth) else some (modules * moduleWidth)

/-- The dots of a line of text and of the gap to the bars. -/
def lineBand (gap : Nat) : Option Mask → Option Nat
  | none => some 0
  | some line => unsigned 32 (line.height + gap)

/-- The columns that bars and a line of text take. -/
def stampWidth (barsWidth : Nat) : Option Mask → Nat
  | none => barsWidth
  | some line => max barsWidth line.width

/-- The bars of modules in the middle of a mask with room for a line of text. -/
def barsMask (modules : List Bool) (moduleWidth barsWidth barsHeight width band top : Nat) :
    Option Mask := do
  let height ← unsigned 32 (barsHeight + band)
  let mask ← blank width height
  let spare ← minus width barsWidth
  drawBars moduleWidth (spare / 2) top barsHeight mask modules.zipIdx

/-- The row in which a line of text begins. -/
def lineTop (above : Bool) (barsHeight gap : Nat) : Option Nat :=
  if above then some 0 else unsigned 32 (barsHeight + gap)

/-- Merges a line of text, if there is one, into the mask of the bars. -/
def placeLine (above : Bool) (width barsHeight gap : Nat) (mask : Mask) :
    Option Mask → Option Mask
  | none => some mask
  | some line => do
    let spare ← minus width line.width
    let top ← lineTop above barsHeight gap
    overlay mask line (spare / 2) top

/-- The bars of modules, with a line of text if there is one. -/
def barStamp (modules : List Bool) (layout : BarLayout) (line : Option Mask) :
    Option (Except Bars.Oversize Stamp) := do
  let moduleWidth := max layout.moduleWidth 1
  let barsHeight := max layout.height 1
  let barsWidth ← dotsOfModules modules.length moduleWidth
  if maxDots < barsWidth ∨ maxDots < barsHeight then
    return .error ⟨barsWidth, barsHeight⟩
  else
    let barsWidth ← unsigned 32 (max barsWidth 1)
    let gap ← unsigned 32 (2 * moduleWidth)
    let band ← lineBand gap line
    let width := stampWidth barsWidth line
    let top := if layout.interpretationAbove then band else 0
    let mask ← barsMask modules moduleWidth barsWidth barsHeight width band top
    let mask ← placeLine layout.interpretationAbove width barsHeight gap mask line
    let baseline ← unsigned 32 (top + barsHeight)
    return .ok ⟨mask, baseline⟩

theorem dotsOfModules_eq_some {modules moduleWidth : Nat}
    (fits : modules < 2 ^ 60 → modules * moduleWidth < 2 ^ 64) :
    dotsOfModules modules moduleWidth = some (modules * moduleWidth) := by
  unfold dotsOfModules
  split
  · rename_i few
    exact unsigned_of_lt (fits few)
  · rfl

theorem barsMask_eq_some {modules : List Bool} {moduleWidth barsWidth barsHeight width band : Nat}
    (top : Nat) (moduleWidthPos : 0 < moduleWidth)
    (barsFit : modules.length * moduleWidth ≤ barsWidth) (widthFits : barsWidth ≤ width)
    (widthLt : width < 2 ^ 31) (heightLt : barsHeight + band < 2 ^ 32) :
    barsMask modules moduleWidth barsWidth barsHeight width band top =
      some (Bars.draw moduleWidth ((width - barsWidth) / 2) top barsHeight
        (Mask.blank width (barsHeight + band)) modules) := by
  have widthWord : width < 2 ^ 32 := by omega
  rw [barsMask, bind_of_eq_some (unsigned_of_lt heightLt),
    bind_of_eq_some (blank_of_lt widthWord heightLt), bind_of_eq_some (minus_of_le widthFits)]
  have maskWidth : (Mask.blank width (barsHeight + band)).width < 2 ^ 32 := widthWord
  have maskHeight : (Mask.blank width (barsHeight + band)).height < 2 ^ 32 := heightLt
  exact drawBars_eq_some maskWidth maskHeight moduleWidthPos _ _ (by omega)

/--
Bars stay in range, and so does a line of text beside them, if their dots can be counted and no
module is wider than all bars that fit.
-/
theorem barStamp_eq_some_of_fits {modules : List Bool} {layout : BarLayout} {line : Option Mask}
    (countable : modules.length < 2 ^ 60 →
      modules.length * max layout.moduleWidth 1 < 2 ^ 64)
    (narrow : modules.length * max layout.moduleWidth 1 ≤ maxDots →
      max layout.moduleWidth 1 ≤ maxDots)
    (lineFits : ∀ mask ∈ line, mask.width ≤ maxDots ∧ mask.height ≤ maxDots) :
    barStamp modules layout line = some (Bars.stamp modules layout line) := by
  have limit : maxDots = 32000 := rfl
  have moduleWidthPos : 0 < max layout.moduleWidth 1 := by omega
  rw [barStamp, Bars.stamp]
  dsimp only
  generalize max layout.moduleWidth 1 = moduleWidth at *
  generalize max layout.height 1 = barsHeight at *
  rw [bind_of_eq_some (dotsOfModules_eq_some countable)]
  by_cases oversize : maxDots < modules.length * moduleWidth ∨ maxDots < barsHeight
  · rw [if_pos oversize, if_pos oversize]
    rfl
  have moduleWidthLe : moduleWidth ≤ maxDots := narrow (by omega)
  rw [if_neg oversize, if_neg oversize, bind_of_eq_some (unsigned_of_lt (by omega)),
    bind_of_eq_some (unsigned_of_lt (by omega))]
  have barsFit : modules.length * moduleWidth ≤ max (modules.length * moduleWidth) 1 :=
    Nat.le_max_left _ _
  have barsWidthLe : max (modules.length * moduleWidth) 1 ≤ maxDots := by omega
  generalize max (modules.length * moduleWidth) 1 = barsWidth at *
  cases line with
  | none =>
      have top : (if layout.interpretationAbove then 0 else 0) = 0 := ite_self 0
      have drawn := barsMask_eq_some 0 moduleWidthPos barsFit (Nat.le_refl _) (by omega)
        (show barsHeight + 0 < 2 ^ 32 by omega)
      rw [Nat.sub_self] at drawn
      rw [lineBand, bind_of_eq_some rfl, stampWidth, top, bind_of_eq_some drawn, placeLine,
        bind_of_eq_some rfl, bind_of_eq_some (unsigned_of_lt (by omega)), Nat.zero_add]
      rfl
  | some line =>
      obtain ⟨lineWidthLe, lineHeightLe⟩ := lineFits line rfl
      have topLe : (if layout.interpretationAbove then line.height + 2 * moduleWidth else 0) ≤
          line.height + 2 * moduleWidth := by
        split <;> omega
      have lineTop : lineTop layout.interpretationAbove barsHeight (2 * moduleWidth) =
          some (if layout.interpretationAbove then 0 else barsHeight + 2 * moduleWidth) := by
        unfold lineTop
        split
        · rfl
        · exact unsigned_of_lt (by omega)
      have lineTopLe : (if layout.interpretationAbove then 0 else barsHeight + 2 * moduleWidth) ≤
          barsHeight + 2 * moduleWidth := by
        split <;> omega
      have widthFits : barsWidth ≤ max barsWidth line.width := Nat.le_max_left _ _
      rw [lineBand, bind_of_eq_some (unsigned_of_lt (by omega)), stampWidth,
        bind_of_eq_some (barsMask_eq_some _ moduleWidthPos barsFit widthFits (by omega) (by omega))]
      rw [placeLine, bind_of_eq_some (minus_of_le (Nat.le_max_right _ _)), bind_of_eq_some lineTop,
        bind_of_eq_some (overlay_eq_some _ (by omega) (by omega)),
        bind_of_eq_some (unsigned_of_lt (by omega))]
      rfl

/-- The bars of the modules that markup can ask for stay in range. -/
theorem barStamp_eq_some (modules : List Bool) {layout : BarLayout} (wellFormed : layout.WellFormed)
    {line : Option Mask}
    (lineFits : ∀ mask ∈ line, mask.width ≤ maxDots ∧ mask.height ≤ maxDots) :
    barStamp modules layout line = some (Bars.stamp modules layout line) := by
  have narrow : max layout.moduleWidth 1 ≤ 10 := Nat.max_le.mpr ⟨wellFormed.moduleWidth, by decide⟩
  refine barStamp_eq_some_of_fits ?_ (fun _ => Nat.le_trans narrow (by decide)) lineFits
  intro few
  have product := Nat.mul_le_mul_left modules.length narrow
  omega

end LabelPress.Checked
