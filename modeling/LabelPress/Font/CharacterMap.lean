import LabelPress.Font.Search
import LabelPress.Font.Table

/-!
# Maps from characters to glyphs

A font holds maps for several platforms and encodings, of which those for Unicode are used.  A map
has one of several formats: a list of glyphs for all bytes or for one range of characters, or
segments or groups of characters with a rule for each.  The maps are asked in their order, and the
first one that knows a character decides.
-/

namespace LabelPress.Font

/-- A map, from the number of its format on. -/
abbrev CharacterMap := Table

namespace CharacterMap

/-- The number of the last header of ranges that a high byte leads to. -/
def lastHeader (map : CharacterMap) : Nat :=
  (List.range 256).foldl (fun last byte => max last ((map.word? (6 + 2 * byte)).getD 0 / 8)) 0

/-- Whether a map has a known format and all the entries that it announces. -/
def isReadable (map : CharacterMap) : Bool :=
  match map.word? 0 with
  | some 0 => map.holds 6 256 1
  | some 2 => map.holds 6 256 2 && map.holds 518 (map.lastHeader + 1) 8
  | some 4 => (map.word? 6).any fun doubled => 2 ≤ doubled ∧ map.holds 16 (doubled / 2) 8
  | some 6 => (map.word? 8).any fun count => map.holds 10 count 2
  | some 8 => true
  | some 10 => (map.long? 16).any fun count => map.holds 20 count 2
  | some 12 | some 13 => (map.long? 12).any fun count => map.holds 16 count 12
  | some 14 => (map.long? 6).any fun count => map.holds 10 count 11
  | _ => false

/-- Whether a map for a platform and an encoding is one of Unicode characters. -/
def isUnicode (map : CharacterMap) (platform encoding : Nat) : Bool :=
  platform = 0 || platform = 3 &&
    (encoding = 1 || encoding = 10 && (map.word? 0 = some 12 || map.word? 0 = some 13))

/-- The glyph of a byte. -/
def byteGlyph? (map : CharacterMap) (code : Nat) : Option Nat := do
  guard (code < 256)
  let glyph ← map.byte? (6 + code)
  guard (glyph ≠ 0)
  return glyph

/-- The glyph of a character whose high byte leads to a range of low bytes. -/
def highByteGlyph? (map : CharacterMap) (code : Nat) : Option Nat := do
  guard (code < 65536)
  let header ← if code < 255 then some 0 else (map.word? (6 + 2 * (code / 256))).map (· / 8)
  let place := 518 + 8 * header
  let first ← map.word? place
  let count ← map.word? (place + 2)
  let delta ← map.short? (place + 4)
  let range ← map.word? (place + 6)
  let low := code % 256
  guard (first + count < 65536 ∧ first ≤ low ∧ low < first + count)
  let glyph ← map.word? (place + 6 + range + 2 * (low - first))
  let moved := (glyph + delta : Int).tmod 65536
  guard (glyph ≠ 0 ∧ 0 ≤ moved)
  return moved.toNat

/-- The glyph of a character in the segment with a number. -/
def segmentGlyph? (map : CharacterMap) (segments code index : Nat) : Option Nat := do
  let first ← map.word? (16 + 2 * segments + 2 * index)
  let delta ← map.word? (16 + 4 * segments + 2 * index)
  let place := 16 + 6 * segments + 2 * index
  let range ← map.word? place
  if range = 0 then return (code + delta) % 65536
  else
    let behind := 2 * (code - first)
    guard (range ≠ 0xFFFF ∧ behind < 65536)
    let glyph ← map.word? ((place + behind + range) % 65536)
    let moved := (glyph + delta) % 65536
    guard (glyph ≠ 0 ∧ moved < 32768)
    return moved

/-- The glyph of a character by segments. -/
def segmentedGlyph? (map : CharacterMap) (code : Nat) : Option Nat := do
  guard (code < 65536)
  let segments := (← map.word? 6) / 2
  let order (index : Nat) : Option Ordering := do
    let last ← map.word? (14 + 2 * index)
    if last < code then return .lt
    else
      let first ← map.word? (16 + 2 * segments + 2 * index)
      return if code < first then .gt else .eq
  let index ← Search.middle? order 0 segments
  segmentGlyph? map segments code index

/-- The glyph of a character by a list of `count` glyphs from a character on. -/
def listedGlyph? (map : CharacterMap) (first count start code : Nat) : Option Nat := do
  guard (first ≤ code ∧ code - first < count)
  map.word? (start + 2 * (code - first))

/-- How the characters of the group with a number compare with a character. -/
def groupOrder? (map : CharacterMap) (code index : Nat) : Option Ordering := do
  let first ← map.long? (16 + 12 * index)
  let last ← map.long? (20 + 12 * index)
  return if code < first then .gt else if last < code then .lt else .eq

/-- The glyph of a character by groups whose glyphs follow each other as their characters do. -/
def groupedGlyph? (map : CharacterMap) (code : Nat) : Option Nat := do
  let index ← Search.place? (map.groupOrder? code) (← map.long? 12)
  let first ← map.long? (16 + 12 * index)
  let glyph ← map.long? (24 + 12 * index)
  guard (glyph + code < 0x100000000 ∧ glyph + code - first < 65536)
  return glyph + code - first

/-- The glyph of a character by groups that have one glyph each. -/
def sharedGlyph? (map : CharacterMap) (code : Nat) : Option Nat := do
  let count ← map.long? 12
  let index ← (List.range count).find? fun index => map.groupOrder? code index = some .eq
  let glyph ← map.long? (24 + 12 * index)
  guard (glyph < 65536)
  return glyph

/-- The glyph of a character, if the map knows it. -/
def glyph? (map : CharacterMap) (code : Nat) : Option Nat := do
  match ← map.word? 0 with
  | 0 => map.byteGlyph? code
  | 2 => map.highByteGlyph? code
  | 4 => map.segmentedGlyph? code
  | 6 =>
    guard (code < 65536)
    map.listedGlyph? (← map.word? 6) (← map.word? 8) 10 code
  | 10 => map.listedGlyph? (← map.long? 12) (← map.long? 16) 20 code
  | 12 => map.groupedGlyph? code
  | 13 => map.sharedGlyph? code
  | _ => none

/-- The platform, the encoding and the map of an entry of a table of maps. -/
def record? (table : Table) (index : Nat) : Option (Nat × Nat × CharacterMap) := do
  let platform ← table.word? (4 + 8 * index)
  let encoding ← table.word? (6 + 8 * index)
  let map ← table.slice? (← table.long? (8 + 8 * index)) table.size
  guard (platform ≤ 4 ∧ isReadable map)
  return (platform, encoding, map)

/-- The maps of Unicode characters of a table, up to the first map that cannot be read. -/
def ofTable (table : Table) : List CharacterMap :=
  let count := (table.word? 2).getD 0
  if table.holds 4 count 8 then
    let records := ((List.range count).map (record? table)).takeWhile Option.isSome
    (records.filterMap id).filterMap fun (platform, encoding, map) =>
      if isUnicode map platform encoding then some map else none
  else []

end CharacterMap

end LabelPress.Font
