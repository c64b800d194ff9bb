import LabelPress.Proofs.Markup.Isolation

/-!
# Labels that markup can hold

The numbers of a label are bounded.  Each command checks its own parameters, and what flows into a
field from elsewhere (the label home, the letters and the bars that were set before) was checked
when it was set.  Well-formedness is therefore an invariant of reading: commands are well formed
(`Command.ensures_read`), carrying one out keeps the state well formed
(`LabelState.WellFormed.apply`), and so every label that is read is well formed
(`ensures_readBytes`).
-/

namespace LabelPress

/-! ## Results with a property -/

section Results

variable {Fault Result Other : Type} {holds : Result → Prop} {further : Other → Prop}

/-- Whatever a computation results in has a property. -/
def Ensures (holds : Result → Prop) (outcome : Except Fault Result) : Prop :=
  ∀ result, outcome = .ok result → holds result

theorem ensures_ok {result : Result} (property : holds result) :
    Ensures holds (.ok result : Except Fault Result) := by
  intro found same
  cases same
  exact property

theorem ensures_error (fault : Fault) : Ensures holds (.error fault : Except Fault Result) := by
  intro found impossible
  cases impossible

theorem ensures_true (outcome : Except Fault Result) : Ensures (fun _ => True) outcome :=
  fun _ _ => trivial

theorem Ensures.bind {outcome : Except Fault Result} {next : Result → Except Fault Other}
    (first : Ensures holds outcome)
    (second : ∀ result, holds result → Ensures further (next result)) :
    Ensures further (outcome >>= next) := by
  cases outcome with
  | error fault =>
      exact ensures_error fault
  | ok result =>
      exact second result (first result rfl)

theorem Ensures.map {outcome : Except Fault Result} {change : Result → Other}
    (first : Ensures holds outcome) (second : ∀ result, holds result → further (change result)) :
    Ensures further (outcome.map change) := by
  cases outcome with
  | error fault =>
      exact ensures_error fault
  | ok result =>
      exact ensures_ok (second result (first result rfl))

/-- A check that stops a computation. -/
theorem Ensures.unless {refused : Prop} [Decidable refused] {fault : Fault}
    {rest : PUnit → Except Fault Result} (passed : ¬refused → Ensures holds (rest ⟨⟩)) :
    Ensures holds (if refused then throw fault >>= rest else rest ⟨⟩) := by
  by_cases stops : refused
  · rw [if_pos stops]
    exact ensures_error fault
  · rw [if_neg stops]
    exact passed stops

/-- What every step of a loop keeps holds in the end. -/
theorem Ensures.foldlM {Item : Type} {step : Result → Item → Except Fault Result}
    (each : ∀ state item, holds state → Ensures holds (step state item)) (items : List Item)
    {state : Result} (start : holds state) : Ensures holds (items.foldlM step state) := by
  induction items generalizing state with
  | nil =>
      exact ensures_ok start
  | cons item items ih =>
      rw [List.foldlM_cons]
      exact (each state item start).bind fun next property => ih property

/-- What is read piece by piece has the property of every piece. -/
theorem Ensures.mapM {Item : Type} {read : Item → Except Fault Result}
    (each : ∀ item, Ensures holds (read item)) (items : List Item) :
    Ensures (fun results : List Result => ∀ result ∈ results, holds result)
      (items.mapM read) := by
  induction items with
  | nil =>
      exact ensures_ok (by simp)
  | cons item items ih =>
      rw [List.mapM_cons]
      refine (each item).bind fun first firstHolds => ih.bind fun later laterHold => ensures_ok ?_
      intro result member
      rcases List.mem_cons.mp member with rfl | member
      · exact firstHolds
      · exact laterHold result member

theorem holds_getD {value : Option Result} {fallback : Result}
    (each : ∀ result ∈ value, holds result) (otherwise : holds fallback) :
    holds (value.getD fallback) := by
  cases value with
  | none =>
      exact otherwise
  | some result =>
      exact each result rfl

theorem holds_of_mem_some {property : Result → Prop} {result : Result} (given : property result) :
    ∀ found ∈ some result, property found := by
  rintro _ ⟨⟩
  exact given

end Results

/-! ## Bounds of what is printed -/

/-- A place reaches no further than the label home and an origin together. -/
structure Origin.WellFormed (origin : Origin) : Prop where
  x : origin.x.natAbs ≤ 2 * maxDots
  y : origin.y.natAbs ≤ 2 * maxDots

/-- Letters have bounded sides. -/
structure Lettering.WellFormed (lettering : Lettering) : Prop where
  height : lettering.height ≤ maxDots
  width : lettering.width ≤ maxDots

/-- A block has bounded sides, and keeps at least one line. -/
structure Block.WellFormed (block : Block) : Prop where
  width : block.width ≤ maxDots
  someLine : 1 ≤ block.maxLines
  maxLines : block.maxLines ≤ maxDots
  lineSpacing : block.lineSpacing.natAbs ≤ maxDots

/-- Bars have a narrowest width of one to ten dots and a bounded height. -/
structure BarLayout.WellFormed (layout : BarLayout) : Prop where
  moduleWidthPos : 1 ≤ layout.moduleWidth
  moduleWidth : layout.moduleWidth ≤ 10
  height : layout.height ≤ maxDots

/-- An outline fits the rectangle around it. -/
structure FitsOutline (width height thickness : Nat) : Prop where
  thicknessPos : 1 ≤ thickness
  thicknessWidth : thickness ≤ width
  thicknessHeight : thickness ≤ height
  width : width ≤ maxDots
  height : height ≤ maxDots

/-- A bitmap has as many bytes as its rows; the last row is the one that reaches its size. -/
structure FitsBitmap (rowBytes rows : Nat) (data : Array UInt8) : Prop where
  rowBytesPos : 1 ≤ rowBytes
  rowsPos : 1 ≤ rows
  size : data.size = rowBytes * rows
  firstRow : rowBytes ≤ Markup.Graphic.maxBytes
  earlierRows : rowBytes * (rows - 1) < Markup.Graphic.maxBytes

/-- What a field prints has bounded sizes. -/
def Content.WellFormed : Content → Prop
  | .text _ lettering block => lettering.WellFormed ∧ ∀ chosen ∈ block, chosen.WellFormed
  | .code128 _ layout _ => layout.WellFormed
  | .ean13 _ layout => layout.WellFormed
  | .qr _ _ magnification => ∀ dots ∈ magnification, 1 ≤ dots ∧ dots ≤ 10
  | .box width height thickness _ rounding =>
    FitsOutline width height thickness ∧ rounding ≤ 8
  | .circle diameter thickness _ =>
    (3 ≤ diameter ∧ diameter ≤ maxDots) ∧ 1 ≤ thickness ∧ thickness ≤ maxDots
  | .ellipse width height thickness _ => FitsOutline width height thickness
  | .bitmap rowBytes rows data => FitsBitmap rowBytes rows data

/-- An element has a bounded place and bounded sizes. -/
structure Element.WellFormed (element : Element) : Prop where
  origin : element.origin.WellFormed
  content : element.content.WellFormed

/-- A label has bounded sides and well-formed elements. -/
structure Label.WellFormed (label : Label) : Prop where
  printWidth : ∀ dots ∈ label.printWidth, dots ≤ maxDots
  length : ∀ dots ∈ label.length, dots ≤ maxDots
  elements : ∀ element ∈ label.elements, element.WellFormed

namespace Markup

/-! ## Parameters -/

namespace Parameters

theorem dots?_bounds {least number : Int} {text : List Char}
    (found : dots? least text = some number) : least ≤ number ∧ number ≤ maxDots := by
  unfold dots? at found
  split at found
  · split at found
    · next bounds =>
        cases found
        exact bounds
    · cases found
  · cases found

theorem ensures_dots (parameters : Parameters) (index : Nat) (least : Int) :
    Ensures (fun value => ∀ number ∈ value, least ≤ number ∧ number ≤ maxDots)
      (parameters.dots index least) := by
  unfold dots
  split
  · exact ensures_ok (by simp)
  · split
    · next found => exact ensures_ok (holds_of_mem_some (dots?_bounds found))
    · exact ensures_error _

theorem ensures_signed (parameters : Parameters) (index : Nat) :
    Ensures (fun value => ∀ number ∈ value, number.natAbs ≤ maxDots)
      (parameters.signed index) := by
  intro value read number member
  have bounds := parameters.ensures_dots index _ value read number member
  omega

theorem ensures_unsigned (parameters : Parameters) (index : Nat) :
    Ensures (fun value => ∀ dots ∈ value, dots ≤ maxDots) (parameters.unsigned index) := by
  refine (parameters.ensures_dots index 0).map fun value bounds => ?_
  intro dots member
  rcases Option.map_eq_some_iff.mp member with ⟨number, found, rfl⟩
  have := bounds number found
  omega

end Parameters

/-! ## Bitmaps -/

namespace Graphic

theorem size_resize (size : Nat) (bytes : Array UInt8) : (resize size bytes).size = size := by
  simp only [resize, Array.size_append, Array.take_eq_extract, Array.size_extract,
    Array.size_replicate]
  omega

theorem ensures_unpack (data : List Char) (rowBytes rows : Nat) :
    Ensures (fun bytes : Array UInt8 => bytes.size = rowBytes * rows)
      (unpack data rowBytes rows) := by
  unfold unpack
  split
  · exact ensures_ok (size_resize _ _)
  · exact ensures_error _

/-- The rows that it takes to hold some bytes: all but the last one are full. -/
theorem rows_bounds (rowBytes total : Nat) (rowBytesPos : 0 < rowBytes) (totalPos : 0 < total) :
    1 ≤ (total + rowBytes - 1) / rowBytes ∧
      rowBytes * ((total + rowBytes - 1) / rowBytes - 1) < total := by
  have rowsPos : 1 ≤ (total + rowBytes - 1) / rowBytes :=
    (Nat.one_le_div_iff rowBytesPos).mpr (by omega)
  have full : rowBytes * ((total + rowBytes - 1) / rowBytes) ≤ total + rowBytes - 1 :=
    Nat.mul_div_le _ _
  refine ⟨rowsPos, ?_⟩
  rw [Nat.mul_sub_one]
  omega

theorem ensures_ofParams (params : List Char) :
    Ensures Content.WellFormed (ofParams params) := by
  unfold ofParams
  refine (ensures_true _).bind fun total _ => ?_
  refine (ensures_true _).bind fun rowBytes _ => ?_
  refine Ensures.unless fun _ => Ensures.unless fun _ => ?_
  refine Ensures.unless fun notEmpty => Ensures.unless fun notTooLarge => ?_
  refine Ensures.unless fun rowFits => ?_
  refine (ensures_unpack _ _ _).bind fun data size => ensures_ok ?_
  have rows := rows_bounds rowBytes total (by omega) (by omega)
  exact ⟨by omega, rows.1, size, by omega, by omega⟩

end Graphic

/-! ## Commands -/

/-- Letters that a command names have bounded sides. -/
structure FontRequest.WellFormed (font : FontRequest) : Prop where
  height : ∀ dots ∈ font.height, dots ≤ maxDots
  width : ∀ dots ∈ font.width, dots ≤ maxDots

/-- What a command asks to be printed has bounded sizes. -/
def Request.WellFormed : Request → Prop
  | .code128 bars _ => ∀ dots ∈ bars.height, dots ≤ maxDots
  | .ean13 bars => ∀ dots ∈ bars.height, dots ≤ maxDots
  | .qr magnification => ∀ dots ∈ magnification, 1 ≤ dots ∧ dots ≤ 10
  | .graphic content => content.WellFormed

namespace Command

/-- The numbers of a command are bounded. -/
def WellFormed : Command → Prop
  | .home x y => x.natAbs ≤ maxDots ∧ y.natAbs ≤ maxDots
  | .origin x y _ => x.natAbs ≤ maxDots ∧ y.natAbs ≤ maxDots
  | .printWidth dots => ∀ width ∈ dots, width ≤ maxDots
  | .labelLength dots => ∀ length ∈ dots, length ≤ maxDots
  | .defaultFont letters => letters.WellFormed
  | .font letters => letters.WellFormed
  | .barDefaults moduleWidth height =>
    (∀ dots ∈ moduleWidth, 1 ≤ dots ∧ dots ≤ 10) ∧ ∀ dots ∈ height, dots ≤ maxDots
  | .block lines => lines.WellFormed
  | .request asked => asked.WellFormed
  | .reverseAll _ | .invert _ | .defaultOrientation _ | .data _ | .reverse | .escapes _
  | .endField | .nothing => True

theorem ensures_point (make : Int → Int → Command) (parameters : Parameters)
    (wellFormed : ∀ x y, x.natAbs ≤ maxDots → y.natAbs ≤ maxDots → (make x y).WellFormed) :
    Ensures WellFormed (do
      let x ← parameters.signed 0
      let y ← parameters.signed 1
      return make (x.getD 0) (y.getD 0)) := by
  refine (parameters.ensures_signed 0).bind fun x xBounds => ?_
  refine (parameters.ensures_signed 1).bind fun y yBounds => ensures_ok ?_
  have zero : (0 : Int).natAbs ≤ maxDots := Nat.zero_le _
  exact wellFormed _ _ (holds_getD xBounds zero) (holds_getD yBounds zero)

theorem ensures_readHome (parameters : Parameters) : Ensures WellFormed (readHome parameters) :=
  ensures_point home parameters fun _ _ xLe yLe => ⟨xLe, yLe⟩

theorem ensures_readOrigin (parameters : Parameters) (anchor : Anchor) :
    Ensures WellFormed (readOrigin parameters anchor) :=
  ensures_point (origin · · anchor) parameters fun _ _ xLe yLe => ⟨xLe, yLe⟩

theorem ensures_readFont (name : Option Char) (parameters : Parameters) :
    Ensures FontRequest.WellFormed (readFont name parameters) :=
  (parameters.ensures_unsigned 1).bind fun _ height =>
    (parameters.ensures_unsigned 2).bind fun _ width => ensures_ok ⟨height, width⟩

theorem ensures_readBars (parameters : Parameters) :
    Ensures (fun bars => ∀ dots ∈ bars.height, dots ≤ maxDots) (readBars parameters) :=
  (parameters.ensures_unsigned 1).bind fun _ height => ensures_ok height

theorem clamped_bounds {value : Option Nat} :
    ∀ dots ∈ value.map fun dots => max 1 (min dots 10), 1 ≤ dots ∧ dots ≤ 10 := by
  intro dots member
  rcases Option.map_eq_some_iff.mp member with ⟨given, -, rfl⟩
  omega

theorem ensures_readBarDefaults (parameters : Parameters) :
    Ensures WellFormed (readBarDefaults parameters) :=
  (parameters.ensures_unsigned 0).bind fun _ _ =>
    (parameters.ensures_unsigned 2).bind fun _ heightLe => ensures_ok ⟨clamped_bounds, heightLe⟩

theorem ensures_readBlock (parameters : Parameters) :
    Ensures WellFormed (readBlock parameters) := by
  refine (parameters.ensures_unsigned 0).bind fun width widthLe => ?_
  refine (parameters.ensures_unsigned 1).bind fun maxLines maxLinesLe => ?_
  refine (parameters.ensures_signed 2).bind fun lineSpacing lineSpacingLe => ensures_ok ?_
  have lines : maxLines.getD 1 ≤ maxDots := holds_getD maxLinesLe (by decide)
  have noSpace : (0 : Int).natAbs ≤ maxDots := Nat.zero_le _
  exact {
    width := holds_getD widthLe (Nat.zero_le _)
    someLine := Nat.le_max_right _ _
    maxLines := Nat.max_le.mpr ⟨lines, Nat.le_of_ble_eq_true rfl⟩
    lineSpacing := holds_getD lineSpacingLe noSpace }

/-- The sides of an outline are at least as long as it is thick. -/
theorem fitsOutline_of_bounds {width height thickness : Option Nat}
    (widthLe : ∀ dots ∈ width, dots ≤ maxDots) (heightLe : ∀ dots ∈ height, dots ≤ maxDots)
    (thicknessLe : ∀ dots ∈ thickness, dots ≤ maxDots) :
    FitsOutline (max (width.getD (max (thickness.getD 1) 1)) (max (thickness.getD 1) 1))
      (max (height.getD (max (thickness.getD 1) 1)) (max (thickness.getD 1) 1))
      (max (thickness.getD 1) 1) := by
  have thick : max (thickness.getD 1) 1 ≤ maxDots :=
    Nat.max_le.mpr ⟨holds_getD thicknessLe (by decide), by decide⟩
  exact {
    thicknessPos := Nat.le_max_right _ _
    thicknessWidth := Nat.le_max_right _ _
    thicknessHeight := Nat.le_max_right _ _
    width := Nat.max_le.mpr ⟨holds_getD widthLe thick, thick⟩
    height := Nat.max_le.mpr ⟨holds_getD heightLe thick, thick⟩ }

theorem ensures_readBox (parameters : Parameters) :
    Ensures Content.WellFormed (readBox parameters) := by
  refine (parameters.ensures_unsigned 2).bind fun thickness thicknessLe => ?_
  refine (parameters.ensures_unsigned 0).bind fun width widthLe => ?_
  refine (parameters.ensures_unsigned 1).bind fun height heightLe => ?_
  refine (parameters.ensures_unsigned 4).bind fun rounding _ => ensures_ok ?_
  exact ⟨fitsOutline_of_bounds widthLe heightLe thicknessLe, Nat.min_le_right _ _⟩

theorem ensures_readCircle (parameters : Parameters) :
    Ensures Content.WellFormed (readCircle parameters) := by
  refine (parameters.ensures_unsigned 0).bind fun diameter diameterLe => ?_
  refine (parameters.ensures_unsigned 1).bind fun thickness thicknessLe => ensures_ok ?_
  have wide : diameter.getD 3 ≤ maxDots := holds_getD diameterLe (by decide)
  have thick : thickness.getD 1 ≤ maxDots := holds_getD thicknessLe (by decide)
  exact ⟨⟨Nat.le_max_right _ _, Nat.max_le.mpr ⟨wide, by decide⟩⟩,
    Nat.le_max_right _ _, Nat.max_le.mpr ⟨thick, by decide⟩⟩

theorem ensures_readEllipse (parameters : Parameters) :
    Ensures Content.WellFormed (readEllipse parameters) := by
  refine (parameters.ensures_unsigned 2).bind fun thickness thicknessLe => ?_
  refine (parameters.ensures_unsigned 0).bind fun width widthLe => ?_
  refine (parameters.ensures_unsigned 1).bind fun height heightLe => ensures_ok ?_
  exact fitsOutline_of_bounds widthLe heightLe thicknessLe

theorem ensures_readBitmap (params : List Char) :
    Ensures Content.WellFormed (readBitmap params) := by
  unfold readBitmap
  split
  · next content found => exact ensures_ok (Graphic.ensures_ofParams params content found)
  · exact ensures_error _

theorem ensures_graphic {content : Except MarkupError Content}
    (wellFormed : Ensures Content.WellFormed content) :
    Ensures WellFormed (content.map fun content => .request (.graphic content)) :=
  wellFormed.map fun _ bounds => bounds

/-- Every command that is read has bounded numbers. -/
theorem ensures_read (code params : List Char) : Ensures WellFormed (read code params) := by
  unfold read
  dsimp only
  split
  case h_1 => exact ensures_readHome _
  case h_2 => exact ensures_ok trivial
  case h_3 => exact (Parameters.ensures_unsigned _ 0).map fun _ bounds => bounds
  case h_4 => exact (Parameters.ensures_unsigned _ 0).map fun _ bounds => bounds
  case h_5 => exact ensures_ok trivial
  case h_6 => exact (ensures_readFont _ _).map fun _ bounds => bounds
  case h_7 => exact (ensures_readFont _ _).map fun _ bounds => bounds
  case h_8 => exact ensures_ok trivial
  case h_9 => exact ensures_readOrigin _ _
  case h_10 => exact ensures_readOrigin _ _
  case h_11 => exact ensures_ok trivial
  case h_12 => exact ensures_ok trivial
  case h_13 => exact ensures_ok trivial
  case h_14 => exact ensures_ok trivial
  case h_15 => exact ensures_ok trivial
  case h_16 => exact ensures_readBlock _
  case h_17 => exact ensures_readBarDefaults _
  case h_18 => exact (ensures_readBars _).bind fun _ height => ensures_ok height
  case h_19 => exact (ensures_readBars _).map fun _ height => height
  case h_20 => exact (Parameters.ensures_unsigned _ 2).map fun _ _ => clamped_bounds
  case h_21 => exact ensures_graphic (ensures_readBox _)
  case h_22 => exact ensures_graphic (ensures_readCircle _)
  case h_23 => exact ensures_graphic (ensures_readEllipse _)
  case h_24 => exact ensures_graphic (ensures_readBitmap _)
  case h_25 => exact ensures_ok trivial

theorem ensures_ofToken (token : Token) : Ensures WellFormed (ofToken token) := by
  unfold ofToken
  split
  · exact ensures_read _ _
  · exact ensures_ok trivial

end Command

/-! ## Labels that are being read -/

/-- What an open field prints has bounded sizes. -/
def Printing.WellFormed : Printing → Prop
  | .code128 layout _ => layout.WellFormed
  | .ean13 layout => layout.WellFormed
  | .qr magnification => ∀ dots ∈ magnification, 1 ≤ dots ∧ dots ≤ 10
  | .graphic content => content.WellFormed

/-- What is chosen for the open field is bounded. -/
structure Field.WellFormed (field : Field) : Prop where
  origin : ∀ place ∈ field.origin, place.WellFormed
  lettering : ∀ letters ∈ field.lettering, letters.WellFormed
  block : ∀ block ∈ field.block, block.WellFormed
  printing : ∀ printing ∈ field.printing, printing.WellFormed

/-- The settings of a label are bounded. -/
structure Settings.WellFormed (settings : Settings) : Prop where
  homeX : settings.home.1.natAbs ≤ maxDots
  homeY : settings.home.2.natAbs ≤ maxDots
  lettering : settings.lettering.WellFormed
  moduleWidthPos : 1 ≤ settings.moduleWidth
  moduleWidth : settings.moduleWidth ≤ 10
  barHeight : settings.barHeight ≤ maxDots

/-- The label so far, the settings and the open field are bounded. -/
structure LabelState.WellFormed (state : LabelState) : Prop where
  label : state.label.WellFormed
  settings : state.settings.WellFormed
  field : state.field.WellFormed

theorem Field.wellFormed_empty : ({} : Field).WellFormed :=
  ⟨by simp, by simp, by simp, by simp⟩

theorem LabelState.wellFormed_fresh : ({} : LabelState).WellFormed where
  label := ⟨by simp, by simp, by simp⟩
  settings := ⟨by decide, by decide, ⟨by decide, by decide⟩, by decide, by decide, by decide⟩
  field := Field.wellFormed_empty

namespace Settings.WellFormed

variable {settings : Settings}

/-- The home and an origin add up. -/
theorem place (bounded : settings.WellFormed) {x y : Int} (xLe : x.natAbs ≤ maxDots)
    (yLe : y.natAbs ≤ maxDots) (anchor : Anchor) : (settings.place x y anchor).WellFormed := by
  have homeX := bounded.homeX
  have homeY := bounded.homeY
  constructor
  · show (settings.home.1 + x).natAbs ≤ 2 * maxDots
    omega
  · show (settings.home.2 + y).natAbs ≤ 2 * maxDots
    omega

theorem letterWidth (bounded : settings.WellFormed) {font : FontRequest}
    (fontBounds : font.WellFormed) : settings.letterWidth font ≤ maxDots := by
  refine holds_getD fontBounds.width ?_
  split
  · exact Nat.zero_le _
  · exact bounded.lettering.width

theorem letters (bounded : settings.WellFormed) {font : FontRequest}
    (fontBounds : font.WellFormed) : (settings.letters font).WellFormed :=
  ⟨holds_getD fontBounds.height bounded.lettering.height, bounded.letterWidth fontBounds⟩

theorem changeDefault (bounded : settings.WellFormed) {font : FontRequest}
    (fontBounds : font.WellFormed) : (settings.changeDefault font).WellFormed :=
  ⟨holds_getD fontBounds.height bounded.lettering.height, bounded.letterWidth fontBounds⟩

theorem layout (bounded : settings.WellFormed) {bars : BarRequest}
    (height : ∀ dots ∈ bars.height, dots ≤ maxDots) : (settings.layout bars).WellFormed :=
  ⟨bounded.moduleWidthPos, bounded.moduleWidth, holds_getD height bounded.barHeight⟩

theorem printing (bounded : settings.WellFormed) {request : Request}
    (requestBounds : request.WellFormed) : (settings.printing request).WellFormed := by
  cases request with
  | code128 bars mode =>
      exact bounded.layout requestBounds
  | ean13 bars =>
      exact bounded.layout requestBounds
  | qr magnification =>
      exact requestBounds
  | graphic content =>
      exact requestBounds

end Settings.WellFormed

namespace Field.WellFormed

variable {field : Field} {settings : Settings}

/-- What the field prints is bounded, letters of the settings included. -/
theorem content? (bounded : field.WellFormed) (settingsBounded : settings.WellFormed) :
    ∀ content ∈ field.content? settings, content.WellFormed := by
  unfold Field.content?
  have asked := bounded.printing
  split
  case h_1 printed => exact holds_of_mem_some (asked _ printed)
  case h_2 printed _ => exact holds_of_mem_some (asked _ printed)
  case h_3 printed _ => exact holds_of_mem_some (asked _ printed)
  case h_4 printed _ => exact holds_of_mem_some (asked _ printed)
  case h_5 =>
    refine holds_of_mem_some ⟨?_, bounded.block⟩
    have plain : settings.plainLetters.WellFormed := { settingsBounded.lettering with }
    exact holds_getD bounded.lettering plain
  case h_6 => simp

theorem element? (bounded : field.WellFormed) (settingsBounded : settings.WellFormed) :
    ∀ element ∈ field.element? settings, element.WellFormed := by
  intro element member
  rcases Option.map_eq_some_iff.mp member with ⟨content, printed, rfl⟩
  have atHome : (settings.place 0 0 .topLeft).WellFormed :=
    settingsBounded.place (Nat.zero_le _) (Nat.zero_le _) .topLeft
  exact ⟨holds_getD bounded.origin atHome, bounded.content? settingsBounded content printed⟩

end Field.WellFormed

namespace LabelState.WellFormed

variable {state : LabelState}

theorem endField (bounded : state.WellFormed) : state.endField.WellFormed := by
  unfold LabelState.endField
  split
  · next element printed =>
      refine ⟨⟨bounded.label.printWidth, bounded.label.length, ?_⟩, bounded.settings,
        Field.wellFormed_empty⟩
      intro other member
      rcases Array.mem_push.mp member with earlier | rfl
      · exact bounded.label.elements other earlier
      · exact bounded.field.element? bounded.settings other printed
  · exact ⟨bounded.label, bounded.settings, Field.wellFormed_empty⟩

/-- Carrying out a command keeps a state bounded. -/
theorem apply (bounded : state.WellFormed) {command : Command}
    (commandBounds : command.WellFormed) :
    Ensures LabelState.WellFormed (state.apply command) := by
  have ⟨label, settings, field⟩ := bounded
  cases command with
  | home x y =>
      exact ensures_ok ⟨label, { settings with
        homeX := commandBounds.1, homeY := commandBounds.2 }, field⟩
  | reverseAll on =>
      exact ensures_ok ⟨label, { settings with }, field⟩
  | printWidth dots =>
      exact ensures_ok ⟨{ label with printWidth := commandBounds }, settings, field⟩
  | labelLength dots =>
      exact ensures_ok ⟨{ label with length := commandBounds }, settings, field⟩
  | invert on =>
      exact ensures_ok ⟨{ label with }, settings, field⟩
  | defaultFont font =>
      exact ensures_ok ⟨label, { settings with
        lettering := settings.changeDefault commandBounds }, field⟩
  | defaultOrientation orientation =>
      exact ensures_ok ⟨label, { settings with }, field⟩
  | barDefaults moduleWidth height =>
      obtain ⟨widthBounds, heightLe⟩ : (∀ dots ∈ moduleWidth, 1 ≤ dots ∧ dots ≤ 10) ∧
          ∀ dots ∈ height, dots ≤ maxDots := commandBounds
      have width := holds_getD widthBounds (And.intro settings.moduleWidthPos settings.moduleWidth)
      exact ensures_ok ⟨label, { settings with
        moduleWidthPos := width.1
        moduleWidth := width.2
        barHeight := holds_getD heightLe settings.barHeight }, field⟩
  | font font =>
      exact ensures_ok ⟨label, settings, { field with
        lettering := holds_of_mem_some (settings.letters commandBounds) }⟩
  | origin x y anchor =>
      exact ensures_ok ⟨label, settings, { field with
        origin := holds_of_mem_some
          (settings.place commandBounds.1 commandBounds.2 anchor) }⟩
  | data text =>
      refine (ensures_true _).map fun text _ => ?_
      exact ⟨label, settings, { field with }⟩
  | reverse =>
      exact ensures_ok ⟨label, settings, { field with }⟩
  | escapes indicator =>
      exact ensures_ok ⟨label, settings, { field with }⟩
  | block block =>
      exact ensures_ok ⟨label, settings, { field with
        block := holds_of_mem_some commandBounds }⟩
  | request request =>
      exact ensures_ok ⟨label, settings, { field with
        printing := holds_of_mem_some (settings.printing commandBounds) }⟩
  | endField =>
      exact ensures_ok bounded.endField
  | nothing =>
      exact ensures_ok bounded

theorem applyToken (bounded : state.WellFormed) (token : Token) :
    Ensures LabelState.WellFormed (state.applyToken token) := by
  unfold LabelState.applyToken
  split
  · next command read => exact bounded.apply (Command.ensures_ofToken token command read)
  · exact ensures_error _

theorem finish (bounded : state.WellFormed) : state.finish.WellFormed := by
  unfold LabelState.finish
  split
  · exact bounded.endField.label
  · exact bounded.label

end LabelState.WellFormed

/-! ## Labels of markup -/

theorem ensures_readSegment (tokens : List Token) :
    Ensures Label.WellFormed (readSegment tokens) := by
  have run : Ensures LabelState.WellFormed (tokens.foldlM LabelState.applyToken {}) :=
    Ensures.foldlM (fun _ token bounded => bounded.applyToken token) tokens
      LabelState.wellFormed_fresh
  exact run.map fun _ bounded => bounded.finish

/-- Every label that is read from markup is well formed. -/
theorem ensures_readBytes (markup : List UInt8) :
    Ensures (fun labels : List Label => ∀ label ∈ labels, label.WellFormed)
      (readBytes markup) := by
  rw [readBytes, readText, readTokens_eq_mapM]
  exact Ensures.mapM ensures_readSegment _

/--
The bounds of everything that is read, in numbers: sides and letters have at most 32000 dots, a
place may add a label home and an origin, outlines are no thicker than their sides, and a bitmap has
all its bytes, of which those above the last row are fewer than 16 MiB.
-/
theorem readBytes_bounded {markup : List UInt8} {labels : List Label}
    (read : readBytes markup = .ok labels) :
    ∀ label ∈ labels,
      (∀ dots ∈ label.printWidth, dots ≤ 32000) ∧ (∀ dots ∈ label.length, dots ≤ 32000) ∧
        ∀ element ∈ label.elements,
          (element.origin.x.natAbs ≤ 64000 ∧ element.origin.y.natAbs ≤ 64000) ∧
            match element.content with
            | .text _ lettering block =>
              (lettering.height ≤ 32000 ∧ lettering.width ≤ 32000) ∧
                ∀ lines ∈ block,
                  (1 ≤ lines.maxLines ∧ lines.maxLines ≤ 32000) ∧ lines.width ≤ 32000 ∧
                    lines.lineSpacing.natAbs ≤ 32000
            | .code128 _ layout _ | .ean13 _ layout =>
              (1 ≤ layout.moduleWidth ∧ layout.moduleWidth ≤ 10) ∧ layout.height ≤ 32000
            | .qr _ _ magnification => ∀ dots ∈ magnification, 1 ≤ dots ∧ dots ≤ 10
            | .box width height thickness _ rounding =>
              (1 ≤ thickness ∧ thickness ≤ width ∧ thickness ≤ height) ∧
                (width ≤ 32000 ∧ height ≤ 32000) ∧ rounding ≤ 8
            | .circle diameter thickness _ =>
              (3 ≤ diameter ∧ diameter ≤ 32000) ∧ 1 ≤ thickness ∧ thickness ≤ 32000
            | .ellipse width height thickness _ =>
              (1 ≤ thickness ∧ thickness ≤ width ∧ thickness ≤ height) ∧
                width ≤ 32000 ∧ height ≤ 32000
            | .bitmap rowBytes rows data =>
              (1 ≤ rowBytes ∧ 1 ≤ rows) ∧ data.size = rowBytes * rows ∧
                rowBytes * (rows - 1) < 16 * 1024 * 1024 := by
  intro label member
  have bounded := ensures_readBytes markup labels read label member
  refine ⟨bounded.printWidth, bounded.length, ?_⟩
  intro element inside
  obtain ⟨place, content⟩ := bounded.elements element inside
  refine ⟨⟨place.x, place.y⟩, ?_⟩
  revert content
  cases element.content with
  | text text lettering block =>
      rintro ⟨letters, blocks⟩
      refine ⟨⟨letters.height, letters.width⟩, ?_⟩
      intro lines chosen
      have fits := blocks lines chosen
      exact ⟨⟨fits.someLine, fits.maxLines⟩, fits.width, fits.lineSpacing⟩
  | code128 data layout mode =>
      intro bars
      exact ⟨⟨bars.moduleWidthPos, bars.moduleWidth⟩, bars.height⟩
  | ean13 data layout =>
      intro bars
      exact ⟨⟨bars.moduleWidthPos, bars.moduleWidth⟩, bars.height⟩
  | qr data level magnification =>
      intro dots
      exact dots
  | box width height thickness ink rounding =>
      rintro ⟨outline, corners⟩
      exact ⟨⟨outline.thicknessPos, outline.thicknessWidth, outline.thicknessHeight⟩,
        ⟨outline.width, outline.height⟩, corners⟩
  | circle diameter thickness ink =>
      intro sides
      exact sides
  | ellipse width height thickness ink =>
      intro outline
      exact ⟨⟨outline.thicknessPos, outline.thicknessWidth, outline.thicknessHeight⟩,
        outline.width, outline.height⟩
  | bitmap rowBytes rows data =>
      intro bitmap
      exact ⟨⟨bitmap.rowBytesPos, bitmap.rowsPos⟩, bitmap.size, bitmap.earlierRows⟩

/-- A box that is asked to be thicker than it is wide, at the far end from the home of its label. -/
theorem readBytes_bounded_of_thick_box :
    let markup := Text.encode "^XA^PW400^LH32000,5^FO32000,0^GB3,6,5^FS^XZ".toList
    let label : Label :=
      { printWidth := some 400
        elements := #[⟨⟨64000, 5, .topLeft⟩, false, .box 5 6 5 .black 0⟩] }
    readBytes markup = .ok [label] ∧ 400 ≤ 32000 ∧ (64000 : Int).natAbs ≤ 64000 ∧
      (1 ≤ 5 ∧ 5 ≤ 5 ∧ 5 ≤ 6) ∧ (5 ≤ 32000 ∧ 6 ≤ 32000) ∧ 0 ≤ 8 := by
  intro markup label
  have read : readBytes markup = .ok [label] := by
    with_unfolding_all rfl
  have bounded := readBytes_bounded read label List.mem_cons_self
  have element := bounded.2.2
    ⟨⟨64000, 5, .topLeft⟩, false, .box 5 6 5 .black 0⟩ (Array.mem_singleton.mpr rfl)
  exact ⟨read, bounded.1 400 rfl, element.1.1, element.2⟩

end Markup

end LabelPress
