import LabelPress.Font.CharacterMap
import LabelPress.Font.Kerning
import LabelPress.Font.Outline

/-!
# Fonts

A font maps characters to glyphs and knows for each glyph how far the pen moves on, how much
closer some pairs of glyphs stand, and the outline.  Characters that it does not know are drawn as
glyph zero.
-/

namespace LabelPress

open LabelPress.Font

/-- A font. -/
structure Font where
  /-- The height above the baseline, in font units. -/
  ascent : Int
  /-- The height of the lower end, which is negative below the baseline. -/
  descent : Int
  /-- The number of glyphs. -/
  glyphCount : Nat
  /-- The advances that are stored; the last one holds for all further glyphs. -/
  advances : Array Nat
  /-- The maps from characters to glyphs. -/
  maps : List CharacterMap
  /-- The parts of the table of kerning. -/
  kerning : List Kerning
  /-- The descriptions of the glyphs. -/
  glyphs : Option GlyphStore

namespace Font

/-- The advances of a table with `count` entries; none are there if the table is too short. -/
def readAdvances (table : Option Table) (count : Nat) : Array Nat :=
  match table with
  | none => #[]
  | some table =>
    if table.holds 0 count 4 then
      (Array.range count).map fun index => (table.word? (4 * index)).getD 0
    else #[]

/-- Further heights above and below the baseline, which stand in a table of their own. -/
structure Heights where
  /-- Whether the typographic heights are the ones to use. -/
  isTypographic : Bool
  typographicAscent : Int
  typographicDescent : Int
  /-- The heights behind which letters are cut off. -/
  clippedAscent : Int
  clippedDescent : Int

namespace Heights

/-- The least number of bytes of a table of heights of a version. -/
def leastSize? : (version : Nat) → Option Nat
  | 0 => some 78
  | 1 => some 86
  | 2 | 3 | 4 => some 96
  | 5 => some 100
  | _ => none

/-- The heights in a table. -/
def ofTable? (table : Table) : Option Heights := do
  let version ← table.word? 0
  guard ((← leastSize? version) ≤ table.size)
  let selection ← table.word? 62
  return {
    isTypographic := 4 ≤ version ∧ selection.testBit 7
    typographicAscent := ← table.short? 68
    typographicDescent := ← table.short? 70
    clippedAscent := ← table.short? 74
    clippedDescent := -(← table.short? 76) }

end Heights

/-- The height to use: a given one of zero is replaced by a further one, unless that is zero too. -/
def chooseHeight (isTypographic : Bool) (given typographic clipped : Int) : Int :=
  if isTypographic then typographic
  else if given ≠ 0 then given
  else if typographic ≠ 0 then typographic
  else clipped

/-- The font in a file, if it is one. -/
def ofFile? (file : Table) : Option Font := do
  let entries ← directory? file
  let table? := table? file entries
  let head ← table? "head"
  let unitsPerEm ← head.word? 18
  let locationFormat ← head.word? 50
  let header ← table? "hhea"
  let ascent ← header.short? 4
  let descent ← header.short? 6
  let advanceCount ← header.word? 34
  let profile ← table? "maxp"
  let version ← profile.long? 0
  let glyphCount ← profile.word? 4
  guard (54 ≤ head.size ∧ 16 ≤ unitsPerEm ∧ unitsPerEm ≤ 16384 ∧ locationFormat ≤ 1)
  guard ((version = 0x00005000 ∨ version = 0x00010000) ∧ glyphCount ≠ 0)
  let heights := (table? "OS/2").bind Heights.ofTable?
  let choose (given : Int) (typographic clipped : Heights → Int) : Int :=
    match heights with
    | none => given
    | some heights =>
      chooseHeight heights.isTypographic given (typographic heights) (clipped heights)
  return {
    ascent := choose ascent Heights.typographicAscent Heights.clippedAscent
    descent := choose descent Heights.typographicDescent Heights.clippedDescent
    glyphCount
    advances := readAdvances (table? "hmtx") advanceCount
    maps := ((table? "cmap").map CharacterMap.ofTable).getD []
    kerning := ((table? "kern").map Kerning.ofTable).getD []
    glyphs := do
      let places ← table? "loca"
      let descriptions ← table? "glyf"
      return {
        count := glyphCount
        placeSize := if locationFormat = 0 then 2 else 4
        places
        descriptions } }

/-- The glyph of a character. -/
def glyph (font : Font) (character : Char) : Nat :=
  (font.maps.findSome? fun map => map.glyph? character.toNat).getD 0

/-- How far the pen moves on behind a glyph, in font units. -/
def advance (font : Font) (glyph : Nat) : Nat :=
  if max font.glyphCount font.advances.size ≤ glyph then 0
  else font.advances.getD (min glyph (font.advances.size - 1)) 0

/-- The distance by which a pair of glyphs is moved, in font units. -/
def kern (font : Font) (first second : Nat) : Int :=
  (font.kerning.findSome? fun part => part.distance? first second).getD 0

/-- The outline of a glyph, if it has one. -/
def outline? (font : Font) (glyph : Nat) : Option Outline := do
  (← font.glyphs).outline? glyph

end Font

end LabelPress
