import LabelPress.Font.Search
import LabelPress.Font.Table

/-!
# Kerning

A table of kerning tells how far pairs of glyphs are moved together or apart.  It has several parts,
of which those for lines of text count; the first part that knows a pair decides.  A part is a list
of pairs, or puts glyphs into classes and has a value for each two classes.  There are two ways to
write the table, which differ in their heads.
-/

namespace LabelPress.Font

/-- How a part tells the distance of a pair. -/
inductive KerningFormat where
  /-- By a list of pairs. -/
  | pairs
  /-- By rules for whole words, which are not used. -/
  | rules
  /-- By classes whose numbers are places of values; these count from the head of the part. -/
  | places
  /-- By classes whose numbers are rows and columns. -/
  | classes
  deriving DecidableEq, Repr

/-- The format with a number. -/
def KerningFormat.ofNat? : Nat → Option KerningFormat
  | 0 => some pairs
  | 1 => some rules
  | 2 => some places
  | 3 => some classes
  | _ => none

/-- A part of a table of kerning. -/
structure Kerning where
  /-- How it tells the distance of a pair. -/
  format : KerningFormat
  /-- The number of bytes of its head. -/
  headSize : Nat
  /-- Whether it is used: it holds for lines of text, and not for fonts that vary. -/
  isUsed : Bool
  /-- The bytes behind its head. -/
  data : Table

namespace Kerning

/-- Whether rules have the classes and states that they announce. -/
def hasRules (data : Table) : Bool :=
  match data.word? 2, data.word? 4, data.word? 6 with
  | some classes, some states, some entries =>
    ((data.word? (classes + 2)).any fun count => data.holds (classes + 4) count 1) ∧
      states ≤ data.size ∧ entries ≤ data.size
  | _, _, _ => false

/-- Whether a part has all that it announces. -/
def isReadable (part : Kerning) : Bool :=
  match part.format with
  | .pairs => (part.data.word? 0).any fun count => part.data.holds 8 count 6
  | .rules => hasRules part.data
  | .places | .classes => true

/-- The distance of a pair by a list of pairs. -/
def listedDistance? (data : Table) (first second : Nat) : Option Int := do
  let count ← data.word? 0
  let wanted := 65536 * first + second
  let order (index : Nat) : Option Ordering :=
    (data.long? (8 + 6 * index)).map fun pair => compare pair wanted
  let index ← Search.place? order count
  data.short? (12 + 6 * index)

/-- The class of a glyph by a list of classes; glyphs outside of it have the class zero. -/
def classFrom (data : Table) (start glyph : Nat) : Nat :=
  let found : Option Nat := do
    let first ← data.word? start
    let count ← data.word? (start + 2)
    guard (data.holds (start + 4) count 2 ∧ first ≤ glyph ∧ glyph - first < count)
    data.word? (start + 4 + 2 * (glyph - first))
  found.getD 0

/-- The distance of a pair by classes that are places. -/
def placedDistance? (data : Table) (headSize first second : Nat) : Option Int := do
  let left ← data.word? 2
  let right ← data.word? 4
  let values ← data.word? 6
  guard (headSize ≤ left ∧ headSize ≤ right ∧ headSize ≤ values)
  let row := classFrom data (left - headSize) first
  let place := row + classFrom data (right - headSize) second
  guard (values - headSize ≤ row ∧ headSize ≤ place)
  data.short? (place - headSize)

/-- The distance of a pair by classes that are rows and columns. -/
def classedDistance? (data : Table) (first second : Nat) : Option Int := do
  let glyphs ← data.word? 0
  let values ← data.byte? 2
  let rows ← data.byte? 3
  let columns ← data.byte? 4
  let left := 6 + 2 * values
  let right := left + glyphs
  let indices := right + glyphs
  guard (data.holds indices (rows * columns) 1 ∧ first < glyphs ∧ second < glyphs)
  let row ← data.byte? (left + first)
  let column ← data.byte? (right + second)
  let index := row * columns + column
  guard (row ≤ rows ∧ column ≤ columns ∧ index < rows * columns)
  let value ← data.byte? (indices + index)
  guard (value < values)
  data.short? (6 + 2 * value)

/-- The distance of a pair, if the part knows it. -/
def distance? (part : Kerning) (first second : Nat) : Option Int :=
  match part.format with
  | .pairs => listedDistance? part.data first second
  | .rules => none
  | .places => placedDistance? part.data part.headSize first second
  | .classes => classedDistance? part.data first second

/--
The part with a short head that begins at `start`, and where it ends.  Its length counts only if it
is not the only part.
-/
def short? (table : Table) (count start : Nat) : Option (Kerning × Nat) := do
  let length ← table.word? (start + 2)
  let format ← table.byte? (start + 4)
  let coverage ← table.byte? (start + 5)
  let format ← KerningFormat.ofNat? format
  guard ((format = .pairs ∨ format = .places) ∧ (count = 1 ∨ 6 ≤ length))
  let stop := if count = 1 then table.size else start + length
  let data ← table.slice? (start + 6) stop
  return ({ format, headSize := 6, isUsed := coverage.testBit 0, data }, stop)

/-- The part with a long head that begins at `start`, and where it ends. -/
def long? (table : Table) (start : Nat) : Option (Kerning × Nat) := do
  let length ← table.long? start
  let coverage ← table.byte? (start + 4)
  let format ← KerningFormat.ofNat? (← table.byte? (start + 5))
  guard (8 ≤ length)
  let data ← table.slice? (start + 8) (start + length)
  let isUsed := !coverage.testBit 7 && !coverage.testBit 5
  return ({ format, headSize := 8, isUsed, data }, start + length)

/-- The parts from `start` on, at most `left` of them, up to one that cannot be read. -/
def partsFrom (next? : Nat → Option (Kerning × Nat)) : (left start : Nat) → List Kerning
  | 0, _ => []
  | left + 1, start =>
    match next? start with
    | none => []
    | some (part, stop) => if part.isReadable then part :: partsFrom next? left stop else []

/-- The parts of a table that are used. -/
def ofTable (table : Table) : List Kerning :=
  let parts :=
    match table.word? 0, table.word? 2, table.long? 4 with
    | some 0, some count, _ => partsFrom (short? table count) (min count table.size) 4
    | some _, _, some count => partsFrom (long? table) (min count table.size) 8
    | _, _, _ => []
  parts.filter Kerning.isUsed

end Kerning

end LabelPress.Font
