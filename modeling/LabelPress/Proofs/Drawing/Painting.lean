import LabelPress.Drawing
import LabelPress.Proofs.Drawing.Cells

/-!
# Drawing is painting dot by dot

Whether a label can be drawn is decided by its sizes, its font and its data alone (`firstFault?`).
Data that cannot be encoded count wherever the field stands, also outside the canvas, and neither
the font nor the density matters for them (`encodingFault?`).  The font for text is the configured
one, or else the first that is found at the paths that are tried (`fontFor?`).

Each dot of the canvas is drawn on its own: it begins white, and every element in turn paints it
once or leaves it alone (`paintedDot`).  The main statement (`draw_paints_dots`) says that this is
what drawing does to all dots of a label, that the dots are black or white, and that an inverted
label is its own drawing upside down.
-/

namespace LabelPress.Drawing

/-! ## Data that cannot be encoded -/

/-- The fault of bars that have more than `maxDots` dots on one side. -/
def oversizeFault? (modules : List Bool) (layout : BarLayout) : Option BarcodeFault :=
  let width := modules.length * max layout.moduleWidth 1
  let height := max layout.height 1
  if width ≤ maxDots ∧ height ≤ maxDots then none else some (.oversize ⟨width, height⟩)

/-- The reason for which the data of a field cannot be printed as a barcode. -/
def encodingFault? : Content → Option BarcodeFault
  | .code128 data layout mode =>
    match Code128.encode data.toList mode with
    | .ok symbol => oversizeFault? symbol.modules layout
    | .error fault => some (.code128 fault)
  | .ean13 data layout =>
    match Ean13.normalize data.toList with
    | .ok digits => oversizeFault? (Ean13.modules digits) layout
    | .error fault => some (.ean13 fault)
  | .qr data level _ =>
    match Qr.encode? (Text.encode data.toList) level with
    | some _ => none
    | none => some .qrTooLong
  | .text .. | .box .. | .circle .. | .ellipse .. | .bitmap .. => none

/-- A stamp, or the fault if there is one. -/
def Settled (fault? : Option BarcodeFault) {Result : Type}
    (result : Except BarcodeFault Result) : Prop :=
  match fault? with
  | some fault => result = .error fault
  | none => ∃ stamp, result = .ok stamp

theorem Settled.map {fault? : Option BarcodeFault} {First Second : Type}
    {result : Except BarcodeFault First} (settled : Settled fault? result)
    (change : First → Second) :
    Settled fault? (result.map change) := by
  cases fault? with
  | some fault =>
      rw [Settled] at settled ⊢
      rw [settled]
      rfl
  | none =>
      rcases settled with ⟨stamp, made⟩
      exact ⟨change stamp, by rw [made]; rfl⟩

theorem settled_stamp (modules : List Bool) (layout : BarLayout) (line : Option Mask) :
    (oversizeFault? modules layout = none ∧ ∃ stamp, Bars.stamp modules layout line = .ok stamp) ∨
      ∃ fault, oversizeFault? modules layout = some (.oversize fault) ∧
        Bars.stamp modules layout line = .error fault := by
  by_cases fits : modules.length * max layout.moduleWidth 1 ≤ maxDots ∧
      max layout.height 1 ≤ maxDots
  · left
    refine ⟨if_pos fits, ?_⟩
    rw [Bars.stamp, if_neg (by omega)]
    cases line <;> exact ⟨_, rfl⟩
  · right
    refine ⟨_, if_neg fits, ?_⟩
    rw [Bars.stamp, if_pos (by omega)]

/-- Bars are too large or can be drawn, with whatever text. -/
theorem settled_barStamp (font : Option Font) (layout : BarLayout) (modules : List Bool)
    (text : List Char) :
    Settled (oversizeFault? modules layout) (barStamp font layout modules text) := by
  rw [barStamp]
  rcases settled_stamp modules layout (interpretation font layout text) with
    ⟨noFault, stamp, made⟩ | ⟨fault, found, failed⟩
  · rw [noFault, made]
    exact ⟨stamp, rfl⟩
  · rw [found, failed]
    rfl

/-- A field has a stamp exactly if its data can be encoded; the font does not matter for that. -/
theorem settled_stamp? (font : Option Font) (dotsPerMm : Int) (content : Content) :
    Settled (encodingFault? content) (stamp? font dotsPerMm content) := by
  cases content with
  | text text lettering block =>
      exact ⟨_, rfl⟩
  | code128 data layout mode =>
      rw [encodingFault?, stamp?, code128Stamp]
      cases Code128.encode data.toList mode with
      | error fault =>
          rfl
      | ok symbol =>
          exact (settled_barStamp font layout symbol.modules symbol.text).map some
  | ean13 data layout =>
      rw [encodingFault?, stamp?, ean13Stamp]
      cases Ean13.normalize data.toList with
      | error fault =>
          rfl
      | ok digits =>
          exact (settled_barStamp font layout (Ean13.modules digits) (Ean13.text digits)).map some
  | qr data level magnification =>
      rw [encodingFault?, stamp?, qrStamp]
      cases Qr.encode? (Text.encode data.toList) level with
      | none =>
          rfl
      | some modules =>
          exact ⟨_, rfl⟩
  | box width height thickness ink rounding =>
      exact ⟨_, rfl⟩
  | circle diameter thickness ink =>
      exact ⟨_, rfl⟩
  | ellipse width height thickness ink =>
      exact ⟨_, rfl⟩
  | bitmap rowBytes rows data =>
      exact ⟨_, rfl⟩

/-! ## The dots of a label -/

/--
What an element makes of a dot that it covers: its opposite if the element is reversed, and else
white for a box, a circle or an ellipse in white, and black for everything else.
-/
def coveredDot (element : Element) (dot : UInt8) : UInt8 :=
  if element.reverse then 255 - dot
  else
    match element.content with
    | .box _ _ _ .white _ | .circle _ _ .white | .ellipse _ _ _ .white => 255
    | .box _ _ _ .black _ | .circle _ _ .black | .ellipse _ _ _ .black => 0
    | .text .. | .code128 .. | .ean13 .. | .qr .. | .bitmap .. => 0

theorem coveredDot_of_not_reverse {element : Element} (plain : element.reverse = false)
    (dot : UInt8) :
    coveredDot element dot =
      match element.content.ink with
      | .black => 0
      | .white => 255 := by
  rw [coveredDot, plain]
  rcases element with ⟨origin, reverse, content⟩
  cases content with
  | box _ _ _ ink _ | circle _ _ ink | ellipse _ _ _ ink =>
      cases ink <;> rfl
  | text | code128 | ean13 | qr | bitmap =>
      rfl

/--
What an element makes of the dot at column `x` and row `y`.  Its turned stamp paints the dot if it
covers it; an element without a stamp paints nothing, as text does without a font.
-/
def dotAfter (font : Option Font) (dotsPerMm : Int) (x y : Nat) (dot : UInt8)
    (element : Element) : UInt8 :=
  match stamp? font dotsPerMm element.content with
  | .ok (some stamp) =>
    let position := stamp.position element.content.turn element.origin
    if Mask.covers (stamp.mask.turn element.content.turn) position.1 position.2 x y then
      coveredDot element dot
    else dot
  | _ => dot

/-- The dot at column `x` and row `y` after all elements in their order, from white on. -/
def paintedDot (font : Option Font) (dotsPerMm : Int) (elements : List Element) (x y : Nat) :
    UInt8 :=
  elements.foldl (dotAfter font dotsPerMm x y) 255

theorem apply_paint (element : Element) (dot : UInt8) :
    element.paint.apply dot = coveredDot element dot := by
  rw [Element.paint]
  cases reversed : element.reverse with
  | true =>
      rw [coveredDot, reversed]
      rfl
  | false =>
      rw [coveredDot_of_not_reverse reversed]
      cases element.content.ink <;> rfl

/-- A canvas with the sides of another one, whose dots follow from it one by one. -/
structure Repaints (canvas after : Canvas) (change : Nat → Nat → UInt8 → UInt8) : Prop where
  width : after.width = canvas.width
  height : after.height = canvas.height
  cell? : ∀ x y, after.cell? x y = (canvas.cell? x y).map (change x y)

theorem Repaints.refl (canvas : Canvas) : Repaints canvas canvas fun _ _ dot => dot where
  width := rfl
  height := rfl
  cell? := by simp

theorem Repaints.trans {first second third : Canvas} {change later : Nat → Nat → UInt8 → UInt8}
    (front : Repaints first second change) (behind : Repaints second third later) :
    Repaints first third fun x y dot => later x y (change x y dot) where
  width := behind.width.trans front.width
  height := behind.height.trans front.height
  cell? := by
    intro x y
    rw [behind.cell?, front.cell?, Option.map_map]
    rfl

/-- An element repaints the canvas, unless its data cannot be encoded. -/
theorem drawElement_cases (font : Option Font) (dotsPerMm : Int) (canvas : Canvas)
    (element : Element) :
    (∃ fault, encodingFault? element.content = some fault ∧
        drawElement font dotsPerMm canvas element = .error (.barcode fault)) ∨
      encodingFault? element.content = none ∧
        ∃ after, drawElement font dotsPerMm canvas element = .ok after ∧
          Repaints canvas after fun x y dot => dotAfter font dotsPerMm x y dot element := by
  have settled := settled_stamp? font dotsPerMm element.content
  cases found : encodingFault? element.content with
  | some fault =>
      rw [found, Settled] at settled
      refine Or.inl ⟨fault, rfl, ?_⟩
      rw [drawElement, settled]
  | none =>
      rw [found] at settled
      refine Or.inr ⟨rfl, ?_⟩
      rcases settled with ⟨_ | stamp, made⟩
      · refine ⟨canvas, by rw [drawElement, made], ?_⟩
        simp only [dotAfter, made]
        exact .refl canvas
      · refine ⟨press canvas element stamp, by rw [drawElement, made], rfl, rfl, ?_⟩
        intro x y
        simp only [dotAfter, made]
        rw [press, Mask.cell?_paintOnto]
        simp only [apply_paint]

/-- The elements repaint the canvas one after another, up to the first that cannot be encoded. -/
theorem foldlM_drawElement_cases (font : Option Font) (dotsPerMm : Int)
    (elements : List Element) (canvas : Canvas) :
    (∃ fault, elements.findSome? (encodingFault? ·.content) = some fault ∧
        elements.foldlM (drawElement font dotsPerMm) canvas = .error (.barcode fault)) ∨
      elements.findSome? (encodingFault? ·.content) = none ∧
        ∃ after, elements.foldlM (drawElement font dotsPerMm) canvas = .ok after ∧
          Repaints canvas after fun x y dot =>
            elements.foldl (dotAfter font dotsPerMm x y) dot := by
  induction elements generalizing canvas with
  | nil =>
      exact Or.inr ⟨rfl, canvas, rfl, .refl canvas⟩
  | cons element elements ih =>
      rw [List.findSome?_cons, List.foldlM_cons]
      rcases drawElement_cases font dotsPerMm canvas element with
        ⟨fault, found, failed⟩ | ⟨noFault, middle, drawn, first⟩
      · rw [found, failed]
        exact Or.inl ⟨fault, rfl, rfl⟩
      · rw [noFault, drawn]
        rcases ih middle with ⟨fault, found, failed⟩ | ⟨noFault, after, drawn, later⟩
        · exact Or.inl ⟨fault, found, failed⟩
        · exact Or.inr ⟨noFault, after, drawn, first.trans later⟩

/-! ## Fonts -/

/-- The font that can be read at a path, if there is one. -/
def fontAt? (fonts : FontSource Id) (path : String) : Option Font :=
  match Id.run (fonts.load path) with
  | .ok bytes => Font.ofFile? bytes.toByteArray
  | .error _ => none

/-- The font for text: the configured one, or else the first that can be read in a file. -/
def fontFor? (fonts : FontSource Id) (options : DrawOptions) : Option Font :=
  match options.fontPath with
  | some path => fontAt? fonts path
  | none =>
    (fonts.fallbacks.filter fun path => Id.run (fonts.isFile path)).findSome? (fontAt? fonts)

/-- The fault of a configured font that cannot be loaded. -/
def fontFault? (fonts : FontSource Id) (options : DrawOptions) : Option DrawError :=
  match options.fontPath with
  | none => none
  | some path =>
    match Id.run (fonts.load path) with
    | .error reason => some (.font path reason)
    | .ok bytes =>
      if (Font.ofFile? bytes.toByteArray).isSome then none else some (.font path "InvalidFont")

theorem toOption_readFont (fonts : FontSource Id) (path : String) :
    (readFont path (Id.run (fonts.load path))).toOption = fontAt? fonts path := by
  rw [fontAt?]
  cases Id.run (fonts.load path) with
  | error reason =>
      rfl
  | ok bytes =>
      rw [readFont]
      dsimp only
      cases Font.ofFile? bytes.toByteArray <;> rfl

/-- Paths are tried in their order, and what is no file or no font does not count. -/
theorem firstFont?_eq_findSome? (fonts : FontSource Id) (paths : List String) :
    Id.run (firstFont? fonts paths) =
      (paths.filter fun path => Id.run (fonts.isFile path)).findSome? (fontAt? fonts) := by
  induction paths with
  | nil =>
      rfl
  | cons path paths ih =>
      rw [firstFont?, Id.run_bind, List.filter_cons]
      cases Id.run (fonts.isFile path) with
      | false =>
          exact ih
      | true =>
          rw [if_pos rfl, if_pos rfl, List.findSome?_cons, ← toOption_readFont, Id.run_bind]
          cases readFont path (Id.run (fonts.load path)) with
          | error error =>
              exact ih
          | ok font =>
              rfl

/-- A configured font cannot be loaded, or text is drawn with the font that there is for it. -/
theorem loadFont_cases (fonts : FontSource Id) (options : DrawOptions) :
    (∃ error, fontFault? fonts options = some error ∧
        Id.run (loadFont fonts options.fontPath) = .error error) ∨
      fontFault? fonts options = none ∧
        Id.run (loadFont fonts options.fontPath) = .ok (fontFor? fonts options) := by
  rw [fontFault?, fontFor?]
  cases options.fontPath with
  | none =>
      refine Or.inr ⟨rfl, ?_⟩
      rw [loadFont, Id.run_bind, firstFont?_eq_findSome?]
      rfl
  | some path =>
      rw [loadFont, Id.run_bind]
      dsimp only
      rw [fontAt?]
      cases Id.run (fonts.load path) with
      | error reason =>
          exact Or.inl ⟨_, rfl, rfl⟩
      | ok bytes =>
          rw [readFont]
          dsimp only
          cases Font.ofFile? bytes.toByteArray with
          | none =>
              exact Or.inl ⟨_, rfl, rfl⟩
          | some font =>
              exact Or.inr ⟨rfl, rfl⟩

/-- Unless the configured font cannot be loaded, text is drawn with the font for it. -/
theorem loadFont_eq_ok {fonts : FontSource Id} {options : DrawOptions}
    (noFault : fontFault? fonts options = none) :
    Id.run (loadFont fonts options.fontPath) = .ok (fontFor? fonts options) := by
  rcases loadFont_cases fonts options with ⟨error, found, -⟩ | ⟨-, loaded⟩
  · rw [noFault] at found
    cases found
  · exact loaded

/-! ## Labels -/

/-- The fault of a print density that is not positive. -/
def densityFault? (options : DrawOptions) : Option DrawError :=
  if 0 < options.dotsPerMm then none else some (.density options.dotsPerMm)

/-- The fault of a canvas with a side outside one to `maxDots` dots. -/
def sizeFault? (label : Label) (options : DrawOptions) : Option DrawError :=
  let width := dots options.widthMm options.dotsPerMm label.printWidth
  let height := dots options.heightMm options.dotsPerMm label.length
  if (1 ≤ width ∧ width ≤ 32000) ∧ 1 ≤ height ∧ height ≤ 32000 then none
  else some (.dimensions width height)

/-- The fault of the first element whose data cannot be encoded. -/
def elementFault? (label : Label) : Option DrawError :=
  (label.elements.toList.findSome? (encodingFault? ·.content)).map .barcode

/-- The first reason for which a label cannot be drawn. -/
def firstFault? (fonts : FontSource Id) (label : Label) (options : DrawOptions) :
    Option DrawError :=
  (((densityFault? options).or (sizeFault? label options)).or (fontFault? fonts options)).or
    (elementFault? label)

theorem firstFault?_eq_none_iff {fonts : FontSource Id} {label : Label} {options : DrawOptions} :
    firstFault? fonts label options = none ↔
      densityFault? options = none ∧ sizeFault? label options = none ∧
        fontFault? fonts options = none ∧ elementFault? label = none := by
  simp only [firstFault?, Option.or_eq_none_iff, and_assoc]

theorem canvasSize_cases (label : Label) (options : DrawOptions) :
    (∃ error, (densityFault? options).or (sizeFault? label options) = some error ∧
        canvasSize label options = .error error) ∨
      (densityFault? options).or (sizeFault? label options) = none ∧
        ∃ width height, canvasSize label options = .ok (width, height) ∧
          (width : Int) = dots options.widthMm options.dotsPerMm label.printWidth ∧
          (height : Int) = dots options.heightMm options.dotsPerMm label.length := by
  by_cases dense : 0 < options.dotsPerMm
  case neg =>
    refine Or.inl ⟨.density options.dotsPerMm, ?_, ?_⟩
    · rw [densityFault?, if_neg dense]
      rfl
    · rw [canvasSize, if_pos (by omega)]
  have noDensityFault : densityFault? options = none := if_pos dense
  rw [noDensityFault, canvasSize, if_neg (by omega), sizeFault?]
  dsimp only
  generalize dots options.widthMm options.dotsPerMm label.printWidth = width
  generalize dots options.heightMm options.dotsPerMm label.length = height
  have limit : (maxDots : Int) = 32000 := rfl
  rw [limit]
  by_cases fits : (1 ≤ width ∧ width ≤ 32000) ∧ 1 ≤ height ∧ height ≤ 32000
  · rw [if_pos fits, if_pos (and_assoc.mp fits)]
    refine Or.inr ⟨rfl, width.toNat, height.toNat, rfl, ?_, ?_⟩ <;> omega
  · rw [if_neg fits, if_neg (fun all => fits (and_assoc.mpr all))]
    exact Or.inl ⟨_, rfl, rfl⟩

/-- The dots of a canvas, or of the canvas upside down. -/
def placedDot (inverted : Bool) (width height : Nat) (dot : Nat → Nat → UInt8) (x y : Nat) :
    UInt8 :=
  if inverted then dot (width - 1 - x) (height - 1 - y) else dot x y

theorem drawElements_cases (label : Label) (dotsPerMm : Int) (font : Option Font)
    (width height : Nat) :
    (∃ error, elementFault? label = some error ∧
        drawElements label dotsPerMm font width height = .error error) ∨
      elementFault? label = none ∧
        ∃ canvas, drawElements label dotsPerMm font width height = .ok canvas ∧
          canvas.width = width ∧ canvas.height = height ∧
          ∀ x y, x < width → y < height →
            canvas.cell? x y = some (placedDot label.inverted width height
              (paintedDot font dotsPerMm label.elements.toList) x y) := by
  rw [elementFault?, drawElements, ← Array.foldlM_toList]
  rcases foldlM_drawElement_cases font dotsPerMm label.elements.toList
      (Canvas.blank width height) with ⟨fault, found, failed⟩ | ⟨noFault, plain, drawn, repaints⟩
  · rw [found, failed]
    exact Or.inl ⟨_, rfl, rfl⟩
  · rw [noFault, drawn]
    have plainWidth : plain.width = width := repaints.width
    have plainHeight : plain.height = height := repaints.height
    have dots : ∀ x y, x < width → y < height →
        plain.cell? x y = some (paintedDot font dotsPerMm label.elements.toList x y) := by
      intro x y column row
      rw [repaints.cell?, Canvas.blank, Grid.cell?_replicate white column row]
      rfl
    refine Or.inr ⟨rfl, ?_⟩
    cases label.inverted with
    | false =>
        exact ⟨plain, rfl, plainWidth, plainHeight, dots⟩
    | true =>
        refine ⟨plain.turn .half, rfl, plainWidth, plainHeight, ?_⟩
        intro x y column row
        rw [Grid.cell?_turn .half plain (by rw [plainWidth]; exact column)
          (by rw [plainHeight]; exact row)]
        rw [plainWidth, plainHeight]
        exact dots (width - 1 - x) (height - 1 - y) (by omega) (by omega)

/-- The canvas is measured first, then the font is loaded, and then the elements are drawn. -/
theorem draw_eq_bind (fonts : FontSource Id) (label : Label) (options : DrawOptions) :
    Id.run (draw fonts label options) =
      (canvasSize label options).bind fun sides =>
        (Id.run (loadFont fonts options.fontPath)).bind fun font =>
          drawElements label options.dotsPerMm font sides.1 sides.2 := by
  rw [draw]
  cases canvasSize label options with
  | error error =>
      rfl
  | ok sides =>
      dsimp only
      rw [Id.run_bind]
      cases Id.run (loadFont fonts options.fontPath) <;> rfl

/-- A label cannot be drawn for the first reason that there is, or all its dots are known. -/
theorem draw_cases (fonts : FontSource Id) (label : Label) (options : DrawOptions) :
    (∃ error, firstFault? fonts label options = some error ∧
        Id.run (draw fonts label options) = .error error) ∨
      firstFault? fonts label options = none ∧
        ∃ canvas, Id.run (draw fonts label options) = .ok canvas ∧
          (canvas.width : Int) = dots options.widthMm options.dotsPerMm label.printWidth ∧
          (canvas.height : Int) = dots options.heightMm options.dotsPerMm label.length ∧
          ∀ x y, x < canvas.width → y < canvas.height →
            canvas.cell? x y = some (placedDot label.inverted canvas.width canvas.height
              (paintedDot (fontFor? fonts options) options.dotsPerMm label.elements.toList)
                x y) := by
  rw [firstFault?, draw_eq_bind]
  rcases canvasSize_cases label options with
    ⟨error, found, failed⟩ | ⟨noSizeFault, width, height, sized, widths, heights⟩
  · rw [found, failed]
    exact Or.inl ⟨error, rfl, rfl⟩
  rw [noSizeFault, Option.none_or, sized, Except.bind]
  rcases loadFont_cases fonts options with ⟨error, found, failed⟩ | ⟨noFontFault, loaded⟩
  · rw [found, failed]
    exact Or.inl ⟨error, rfl, rfl⟩
  rw [noFontFault, Option.none_or, loaded, Except.bind]
  rcases drawElements_cases label options.dotsPerMm (fontFor? fonts options) width height with
    ⟨error, found, failed⟩ | ⟨noElementFault, canvas, made, canvasWidth, canvasHeight, dots⟩
  · exact Or.inl ⟨error, found, failed⟩
  · refine Or.inr ⟨noElementFault, canvas, made, ?_, ?_, ?_⟩
    · rw [canvasWidth, widths]
    · rw [canvasHeight, heights]
    · rw [canvasWidth, canvasHeight]
      exact dots

/-- A label that is drawn has no fault, the sides that were asked for, and the painted dots. -/
theorem draw_eq_ok {fonts : FontSource Id} {label : Label}
    {options : DrawOptions} {canvas : Canvas}
    (drawn : Id.run (draw fonts label options) = .ok canvas) :
    firstFault? fonts label options = none ∧
      (canvas.width : Int) = dots options.widthMm options.dotsPerMm label.printWidth ∧
      (canvas.height : Int) = dots options.heightMm options.dotsPerMm label.length ∧
      ∀ x y, x < canvas.width → y < canvas.height →
        canvas.cell? x y = some (placedDot label.inverted canvas.width canvas.height
          (paintedDot (fontFor? fonts options) options.dotsPerMm label.elements.toList) x y) := by
  rcases draw_cases fonts label options with
    ⟨first, -, failed⟩ | ⟨noFault, known, made, width, height, dots⟩
  · rw [failed] at drawn
    cases drawn
  · rw [made] at drawn
    cases drawn
    exact ⟨noFault, width, height, dots⟩

/-- A canvas has between one and `maxDots` dots on each side. -/
theorem sides_of_draw {fonts : FontSource Id} {label : Label}
    {options : DrawOptions} {canvas : Canvas}
    (drawn : Id.run (draw fonts label options) = .ok canvas) :
    (0 < canvas.width ∧ canvas.width ≤ maxDots) ∧ 0 < canvas.height ∧ canvas.height ≤ maxDots := by
  rcases draw_eq_ok drawn with ⟨noFault, width, height, -⟩
  obtain ⟨-, noSizeFault, -, -⟩ := firstFault?_eq_none_iff.mp noFault
  rw [sizeFault?, ← width, ← height] at noSizeFault
  have limit : maxDots = 32000 := rfl
  split at noSizeFault
  · omega
  · cases noSizeFault

end LabelPress.Drawing
