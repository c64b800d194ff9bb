import LabelPress.Drawing
import LabelPress.Proofs.Drawing.CheckedCanvas
import LabelPress.Proofs.Drawing.CheckedShapes

/-!
# Labels of markup are drawn without leaving any range

`Checked.draw` draws a label without a font by checked steps alone: numbers fit their words,
differences of sizes are not negative, every dot and every entry of a table is there, corners are
cut between ends in order, and a turned picture fills its buffer.  It has no result if one of these
steps fails.

The main statement (`draw_stays_in_range`) says that it always has one for a label that was read
from markup, and that this is the drawing itself.  What it needs to know about the label is its
well-formedness; stamps of well-formed fields are bounded (`fits_of_stamp?`), and so are their
places.
-/

namespace LabelPress.Checked

/-! ## Stamps -/

/-- The bars of modules, without a font for the text that they stand for. -/
def bars (modules : List Bool) (layout : BarLayout) (text : List Char) :
    Option (Except BarcodeFault (Option Stamp)) := do
  let stamp ← barStamp modules layout (Drawing.interpretation none layout text)
  match stamp with
  | .ok stamp => return .ok (some stamp)
  | .error fault => return .error (.oversize fault)

/-- The upright stamp of what a field prints; text has none without a font. -/
def stamp? (dotsPerMm : Int) : Content → Option (Except BarcodeFault (Option Stamp))
  | .text .. => some (.ok none)
  | .code128 data layout mode =>
    match Code128.encode data.toList mode with
    | .error fault => some (.error (.code128 fault))
    | .ok symbol => do
      let modules ← code128Modules symbol
      bars modules layout symbol.text
  | .ean13 data layout => do
    match ← ean13Digits data.toList with
    | .error fault => return .error (.ean13 fault)
    | .ok digits =>
      let modules ← ean13Modules digits
      bars modules layout (Ean13.text digits)
  | .qr data level magnification =>
    match Qr.encode? (Text.encode data.toList) level with
    | none => some (.error .qrTooLong)
    | some modules => do
      let mask ← magnify modules (magnification.getD (Qr.defaultMagnification dotsPerMm))
      return .ok (some (.onBottom mask))
  | .box width height thickness _ rounding => do
    let mask ← box width height thickness rounding
    return .ok (some (.onBottom mask))
  | .circle diameter thickness _ => do
    let mask ← ellipse diameter diameter thickness
    return .ok (some (.onBottom mask))
  | .ellipse width height thickness _ => do
    let mask ← ellipse width height thickness
    return .ok (some (.onBottom mask))
  | .bitmap rowBytes rows data => do
    let mask ← bitmap rowBytes rows data
    return .ok (some (.onBottom mask))

theorem bars_eq_some (modules : List Bool) {layout : BarLayout} (wellFormed : layout.WellFormed)
    (text : List Char) :
    bars modules layout text = some ((Drawing.barStamp none layout modules text).map some) := by
  have noLine : ∀ mask ∈ Drawing.interpretation none layout text,
      mask.width ≤ maxDots ∧ mask.height ≤ maxDots := by
    intro mask member
    cases member
  rw [bars, bind_of_eq_some (barStamp_eq_some modules wellFormed noLine), Drawing.barStamp]
  cases Bars.stamp modules layout (Drawing.interpretation none layout text) <;> rfl

theorem defaultMagnification_le (dotsPerMm : Int) : Qr.defaultMagnification dotsPerMm ≤ 10 := by
  unfold Qr.defaultMagnification
  split
  · decide
  · split
    · decide
    · split <;> decide

/-- A magnification of a well-formed symbol, or the one that follows from the density. -/
theorem magnification_le {magnification : Option Nat}
    (wellFormed : ∀ dots ∈ magnification, 1 ≤ dots ∧ dots ≤ 10) (dotsPerMm : Int) :
    magnification.getD (Qr.defaultMagnification dotsPerMm) ≤ 10 :=
  holds_getD (fun dots member => (wellFormed dots member).2) (defaultMagnification_le dotsPerMm)

/-- Making a stamp of a well-formed field stays in range. -/
theorem stamp?_eq_some (dotsPerMm : Int) {content : Content} (wellFormed : content.WellFormed) :
    stamp? dotsPerMm content = some (Drawing.stamp? none dotsPerMm content) := by
  have limit : maxDots = 32000 := rfl
  cases content with
  | text text lettering block =>
      rfl
  | code128 data layout mode =>
      rw [stamp?, Drawing.stamp?, Drawing.code128Stamp]
      cases encoded : Code128.encode data.toList mode with
      | error fault =>
          rfl
      | ok symbol =>
          exact (bind_of_eq_some (code128Modules_eq_some encoded)).trans
            (bars_eq_some _ wellFormed _)
  | ean13 data layout =>
      rw [stamp?, Drawing.stamp?, Drawing.ean13Stamp, bind_of_eq_some (ean13Digits_eq_some _)]
      cases normal : Ean13.normalize data.toList with
      | error fault =>
          rfl
      | ok digits =>
          exact (bind_of_eq_some (ean13Modules_eq_some (Ean13.digit_lt_of_normalize normal))).trans
            (bars_eq_some _ wellFormed _)
  | qr data level magnification =>
      rw [stamp?, Drawing.stamp?, Drawing.qrStamp]
      cases encoded : Qr.encode? (Text.encode data.toList) level with
      | none =>
          rfl
      | some modules =>
          rcases Qr.isSquare_of_encode? encoded with ⟨size, sizePos, sizeLe, square⟩
          exact bind_of_eq_some
            (magnify_eq_some sizePos sizeLe square (magnification_le wellFormed dotsPerMm))
  | box width height thickness ink rounding =>
      have widthLe := wellFormed.1.width
      have heightLe := wellFormed.1.height
      exact bind_of_eq_some (box_eq_some _ _ (by omega) (by omega))
  | circle diameter thickness ink =>
      have diameterLe := wellFormed.1.2
      exact bind_of_eq_some (ellipse_eq_some _ (by omega) (by omega))
  | ellipse width height thickness ink =>
      have widthLe := wellFormed.width
      have heightLe := wellFormed.height
      exact bind_of_eq_some (ellipse_eq_some _ (by omega) (by omega))
  | bitmap rowBytes rows data =>
      exact bind_of_eq_some (bitmap_eq_some wellFormed)

theorem sides_draw (moduleWidth left top height : Nat) (mask : Mask) (modules : List Bool) :
    (Bars.draw moduleWidth left top height mask modules).width = mask.width ∧
      (Bars.draw moduleWidth left top height mask modules).height = mask.height := by
  induction modules generalizing left mask with
  | nil =>
      exact ⟨rfl, rfl⟩
  | cons bar modules ih =>
      cases bar with
      | false =>
          exact ih _ mask
      | true =>
          exact ih _ (mask.fillRect left top moduleWidth height)

theorem fits_of_barStamp {layout : BarLayout} {modules : List Bool} {text : List Char}
    {stamp : Stamp} (made : Drawing.barStamp none layout modules text = .ok stamp) :
    Fits stamp := by
  have limit : maxDots = 32000 := rfl
  rw [Drawing.barStamp, Drawing.interpretation, Bars.stamp] at made
  by_cases oversize : maxDots < modules.length * max layout.moduleWidth 1 ∨
      maxDots < max layout.height 1
  · rw [if_pos oversize] at made
    cases made
  rw [if_neg oversize] at made
  cases made
  have sides := sides_draw (max layout.moduleWidth 1) 0 0 (max layout.height 1)
    (Mask.blank (max (modules.length * max layout.moduleWidth 1) 1) (max layout.height 1)) modules
  have width : (Mask.blank (max (modules.length * max layout.moduleWidth 1) 1)
      (max layout.height 1)).width = max (modules.length * max layout.moduleWidth 1) 1 := rfl
  have height : (Mask.blank (max (modules.length * max layout.moduleWidth 1) 1)
      (max layout.height 1)).height = max layout.height 1 := rfl
  constructor
  · show (Bars.draw _ _ _ _ _ _).width ≤ _
    omega
  · show (Bars.draw _ _ _ _ _ _).height ≤ _
    omega
  · show max layout.height 1 ≤ _
    omega

theorem fits_onBottom {mask : Mask} (width : mask.width ≤ 2 ^ 27) (height : mask.height ≤ 2 ^ 27) :
    Fits (.onBottom mask) :=
  ⟨width, height, height⟩

theorem fits_of_code128Stamp {data : String} {layout : BarLayout} {mode : Code128Mode}
    {stamp : Stamp} (made : Drawing.code128Stamp none data layout mode = .ok stamp) :
    Fits stamp := by
  unfold Drawing.code128Stamp at made
  split at made
  · exact fits_of_barStamp made
  · cases made

theorem fits_of_ean13Stamp {data : String} {layout : BarLayout} {stamp : Stamp}
    (made : Drawing.ean13Stamp none data layout = .ok stamp) : Fits stamp := by
  unfold Drawing.ean13Stamp at made
  split at made
  · exact fits_of_barStamp made
  · cases made

/-- A symbol has at most 177 modules on each side, of at most ten dots. -/
theorem fits_of_qrStamp {data : String} {level : QrLevel} {magnification : Nat}
    (magnificationLe : magnification ≤ 10) {stamp : Stamp}
    (made : Drawing.qrStamp data level magnification = .ok stamp) : Fits stamp := by
  unfold Drawing.qrStamp at made
  split at made
  · next modules encoded =>
      cases made
      rcases Qr.isSquare_of_encode? encoded with ⟨size, -, sizeLe, width, height⟩
      have side : size * max magnification 1 ≤ 177 * 10 :=
        Nat.mul_le_mul sizeLe (Nat.max_le.mpr ⟨magnificationLe, by decide⟩)
      apply fits_onBottom
      · show modules.width * max magnification 1 ≤ _
        rw [width]
        omega
      · show modules.height * max magnification 1 ≤ _
        rw [height]
        omega
  · cases made

theorem fits_of_map {made : Except BarcodeFault Stamp} {stamp : Stamp}
    (each : ∀ stamp, made = .ok stamp → Fits stamp) (found : made.map some = .ok (some stamp)) :
    Fits stamp := by
  cases made with
  | error fault =>
      cases found
  | ok known =>
      cases found
      exact each stamp rfl

/-- The stamp of a well-formed field is bounded. -/
theorem fits_of_stamp? {dotsPerMm : Int} {content : Content} (wellFormed : content.WellFormed)
    {stamp : Stamp} (made : Drawing.stamp? none dotsPerMm content = .ok (some stamp)) :
    Fits stamp := by
  have limit : maxDots = 32000 := rfl
  cases content with
  | text text lettering block =>
      cases made
  | code128 data layout mode =>
      exact fits_of_map (fun stamp => fits_of_code128Stamp) made
  | ean13 data layout =>
      exact fits_of_map (fun stamp => fits_of_ean13Stamp) made
  | qr data level magnification =>
      have magnificationLe := magnification_le wellFormed dotsPerMm
      exact fits_of_map (fun stamp => fits_of_qrStamp magnificationLe) made
  | box width height thickness ink rounding =>
      cases made
      have widthLe := wellFormed.1.width
      have heightLe := wellFormed.1.height
      exact fits_onBottom (show width ≤ _ by omega) (show height ≤ _ by omega)
  | circle diameter thickness ink =>
      cases made
      have diameterLe := wellFormed.1.2
      exact fits_onBottom (show diameter ≤ _ by omega) (show diameter ≤ _ by omega)
  | ellipse width height thickness ink =>
      cases made
      have widthLe := wellFormed.width
      have heightLe := wellFormed.height
      exact fits_onBottom (show width ≤ _ by omega) (show height ≤ _ by omega)
  | bitmap rowBytes rows data =>
      cases made
      have most : Markup.Graphic.maxBytes = 16777216 := rfl
      have firstRow := wellFormed.firstRow
      have earlierRows := wellFormed.earlierRows
      have rowsLe : rows - 1 ≤ rowBytes * (rows - 1) :=
        Nat.le_mul_of_pos_left _ wellFormed.rowBytesPos
      exact fits_onBottom (show 8 * rowBytes ≤ _ by omega) (show rows ≤ _ by omega)

/-! ## Labels -/

/-- Turns a stamp, places it and paints it onto the canvas. -/
def press (canvas : Canvas) (element : Element) (stamp : Stamp) : Option Canvas := do
  let position ← position stamp element.content.turn element.origin
  let mask ← turn element.content.turn stamp.mask
  paintOnto mask canvas position.1 position.2 element.paint

/-- Draws an element. -/
def drawElement (dotsPerMm : Int) (canvas : Canvas) (element : Element) :
    Option (Except DrawError Canvas) := do
  match ← stamp? dotsPerMm element.content with
  | .ok (some stamp) => (press canvas element stamp).map .ok
  | .ok none => return .ok canvas
  | .error fault => return .error (.barcode fault)

/-- Draws elements one after another, up to the first that cannot be drawn. -/
def drawElements (dotsPerMm : Int) : Canvas → List Element → Option (Except DrawError Canvas)
  | canvas, [] => some (.ok canvas)
  | canvas, element :: elements => do
    match ← drawElement dotsPerMm canvas element with
    | .ok canvas => drawElements dotsPerMm canvas elements
    | .error error => return .error error

/-- A blank canvas; its sides are words. -/
def blankCanvas (width height : Nat) : Option Canvas := do
  let width ← unsigned 32 width
  let height ← unsigned 32 height
  return Canvas.blank width height

/-- Draws a label without a font. -/
def draw (label : Label) (options : DrawOptions) : Option (Except DrawError Canvas) :=
  match Drawing.canvasSize label options with
  | .error error => some (.error error)
  | .ok (width, height) => do
    let canvas ← blankCanvas width height
    match ← drawElements options.dotsPerMm canvas label.elements.toList with
    | .error error => return .error error
    | .ok canvas => if label.inverted then (turn .half canvas).map .ok else return .ok canvas

/-- A stamp is painted in range, wherever its field stands and however it is turned. -/
theorem press_eq_some (canvas : Canvas) {element : Element} (origin : element.origin.WellFormed)
    {stamp : Stamp} (fits : Fits stamp) :
    press canvas element stamp = some (Drawing.press canvas element stamp) := by
  obtain ⟨placed, xLe, yLe⟩ := position_eq_some fits element.content.turn origin
  have widthLe := fits.width
  have heightLe := fits.height
  have sides : (stamp.mask.turn element.content.turn).width ≤ 2 ^ 27 ∧
      (stamp.mask.turn element.content.turn).height ≤ 2 ^ 27 := by
    rw [Grid.width_turn, Grid.height_turn]
    unfold Turn.sides
    split
    · exact ⟨heightLe, widthLe⟩
    · exact ⟨widthLe, heightLe⟩
  rw [press, bind_of_eq_some placed, bind_of_eq_some (turn_eq_some _ _)]
  exact paintOnto_eq_some canvas element.paint (by omega) (by omega)

theorem drawElement_eq_some (dotsPerMm : Int) (canvas : Canvas) {element : Element}
    (wellFormed : element.WellFormed) :
    drawElement dotsPerMm canvas element =
      some (Drawing.drawElement none dotsPerMm canvas element) := by
  rw [drawElement, bind_of_eq_some (stamp?_eq_some dotsPerMm wellFormed.content),
    Drawing.drawElement]
  cases made : Drawing.stamp? none dotsPerMm element.content with
  | error fault =>
      rfl
  | ok stamp? =>
      cases stamp? with
      | none =>
          rfl
      | some stamp =>
          dsimp only
          rw [press_eq_some canvas wellFormed.origin (fits_of_stamp? wellFormed.content made)]
          rfl

theorem drawElements_eq_some (dotsPerMm : Int) (canvas : Canvas) {elements : List Element}
    (wellFormed : ∀ element ∈ elements, element.WellFormed) :
    drawElements dotsPerMm canvas elements =
      some (elements.foldlM (Drawing.drawElement none dotsPerMm) canvas) := by
  induction elements generalizing canvas with
  | nil =>
      rfl
  | cons element elements ih =>
      rw [drawElements, bind_of_eq_some (drawElement_eq_some dotsPerMm canvas
        (wellFormed element List.mem_cons_self)), List.foldlM_cons]
      cases Drawing.drawElement none dotsPerMm canvas element with
      | error error =>
          rfl
      | ok next =>
          exact ih next fun other member => wellFormed other (List.mem_cons_of_mem element member)

/-- The sides of a canvas are words. -/
theorem sides_lt_of_canvasSize {label : Label} {options : DrawOptions} {sides : Nat × Nat}
    (sized : Drawing.canvasSize label options = .ok sides) :
    sides.1 < 2 ^ 32 ∧ sides.2 < 2 ^ 32 := by
  have limit : (maxDots : Int) = 32000 := rfl
  unfold Drawing.canvasSize at sized
  split at sized
  · cases sized
  · dsimp only at sized
    split at sized
    · next inside =>
        cases sized
        dsimp only
        omega
    · cases sized

theorem draw_eq_some {label : Label} (wellFormed : label.WellFormed) {options : DrawOptions}
    {fonts : FontSource Id} (noFont : Id.run (Drawing.loadFont fonts options.fontPath) = .ok none) :
    draw label options = some (Id.run (Drawing.draw fonts label options)) := by
  rw [draw, Drawing.draw]
  cases sized : Drawing.canvasSize label options with
  | error error =>
      rfl
  | ok sides =>
      obtain ⟨width, height⟩ := sides
      have words := sides_lt_of_canvasSize sized
      have blank : blankCanvas width height = some (Canvas.blank width height) := by
        rw [blankCanvas, bind_of_eq_some (unsigned_of_lt words.1),
          bind_of_eq_some (unsigned_of_lt words.2)]
        rfl
      have each : ∀ element ∈ label.elements.toList, element.WellFormed := by
        intro element member
        exact wellFormed.elements element (Array.mem_toList_iff.mp member)
      have elements := drawElements_eq_some options.dotsPerMm (Canvas.blank width height) each
      dsimp only
      rw [Id.run_bind, noFont]
      show _ = some (Drawing.drawElements label options.dotsPerMm none width height)
      rw [bind_of_eq_some blank, bind_of_eq_some elements, Drawing.drawElements,
        ← Array.foldlM_toList]
      cases label.elements.toList.foldlM (Drawing.drawElement none options.dotsPerMm)
          (Canvas.blank width height) with
      | error error =>
          rfl
      | ok canvas =>
          cases label.inverted with
          | false =>
              rfl
          | true =>
              dsimp only
              rw [if_pos rfl, turn_eq_some]
              rfl

/--
Every label that is read from markup is drawn in range, whatever its size and density, as long as
no font is asked for and none is found: all checked steps succeed, and the result is the drawing
itself, a canvas or an error.
-/
theorem draw_stays_in_range {markup : List UInt8} {labels : List Label}
    (read : Markup.readBytes markup = .ok labels) {label : Label} (member : label ∈ labels)
    {options : DrawOptions} {fonts : FontSource Id}
    (noFont : Id.run (Drawing.loadFont fonts options.fontPath) = .ok none) :
    draw label options = some (Id.run (Drawing.draw fonts label options)) :=
  draw_eq_some (Markup.ensures_readBytes markup labels read label member) noFont

/-- Bars that are turned and hang below the canvas, on a label that is turned upside down. -/
theorem draw_turned_bars_in_range :
    let markup : List UInt8 :=
      Text.encode "^XA^PW60^LL80^FT40,90^BER,20,N^FD5901^FS^POI^XZ".toList
    let label : Label :=
      { printWidth := some 60
        length := some 80
        inverted := true
        elements := #[⟨⟨40, 90, .baseline⟩, false, .ean13 "5901" ⟨.rotated, 2, 20, false, false⟩⟩] }
    let options : DrawOptions := { dotsPerMm := 8 }
    let fonts : FontSource Id :=
      { isFile := fun _ => pure false, load := fun _ => pure (.error "not found")
        fallbacks := ["sans.ttf"] }
    Markup.readBytes markup = .ok [label] ∧ label ∈ [label] ∧
      Id.run (Drawing.loadFont fonts options.fontPath) = .ok none ∧
      draw label options = some (Id.run (Drawing.draw fonts label options)) := by
  intro markup label options fonts
  have read : Markup.readBytes markup = .ok [label] := by
    subst markup label
    with_unfolding_all rfl
  have member : label ∈ [label] := List.mem_singleton_self label
  have noFont : Id.run (Drawing.loadFont fonts options.fontPath) = .ok none := rfl
  exact ⟨read, member, noFont, draw_stays_in_range read member noFont⟩

end LabelPress.Checked
