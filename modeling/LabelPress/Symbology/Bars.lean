import LabelPress.Canvas

/-!
# Symbols made of upright bars

The modules of a symbol are drawn as bars of equal height.  The text that the symbol stands for
may be printed above or below the bars, at a distance of two modules; the narrower of the two is
centred.  The baseline is the lower end of the bars.
-/

namespace LabelPress.Bars

/-- The symbol has more than `maxDots` dots on one side. -/
structure Oversize where
  width : Nat
  height : Nat
  deriving DecidableEq, Repr

/-- The text of this fault. -/
def Oversize.message (fault : Oversize) : String :=
  "symbol of " ++ toString fault.width ++ "x" ++ toString fault.height ++ " dots exceeds " ++
    toString maxDots ++ " dots"

/-- Draws the bars of modules from column `left` on. -/
def draw (moduleWidth left top height : Nat) (mask : Mask) : List Bool → Mask
  | [] => mask
  | bar :: modules =>
    draw moduleWidth (left + moduleWidth) top height
      (if bar then mask.fillRect left top moduleWidth height else mask) modules

/-- The dots between the bars and the text. -/
def textGap (moduleWidth : Nat) : Nat :=
  2 * moduleWidth

/-- The bars of modules, with a line of text if there is one. -/
def stamp (modules : List Bool) (layout : BarLayout) (line : Option Mask) :
    Except Oversize Stamp :=
  let moduleWidth := max layout.moduleWidth 1
  let barsHeight := max layout.height 1
  let barsWidth := modules.length * moduleWidth
  if maxDots < barsWidth ∨ maxDots < barsHeight then .error ⟨barsWidth, barsHeight⟩
  else
    let barsWidth := max barsWidth 1
    match line with
    | none =>
      let mask := Mask.blank barsWidth barsHeight
      .ok ⟨draw moduleWidth 0 0 barsHeight mask modules, barsHeight⟩
    | some line =>
      let band := line.height + textGap moduleWidth
      let width := max barsWidth line.width
      let barsTop := if layout.interpretationAbove then band else 0
      let lineTop := if layout.interpretationAbove then 0 else barsHeight + textGap moduleWidth
      let mask := Mask.blank width (barsHeight + band)
      let mask := draw moduleWidth ((width - barsWidth) / 2) barsTop barsHeight mask modules
      .ok ⟨mask.overlay line ((width - line.width) / 2) lineTop, barsTop + barsHeight⟩

end LabelPress.Bars
