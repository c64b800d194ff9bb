/-!
# Tables of a font file

A font file opens with a directory of tables, each named by four letters; of several entries with
one name the last one counts.  Numbers are stored with the most significant byte first.  A table
that does not lie inside the file is taken as absent.
-/

namespace LabelPress.Font

/-- The bytes of one table. -/
abbrev Table := ByteArray

namespace Table

/-- The byte at an offset. -/
def byte? (table : Table) (offset : Nat) : Option Nat :=
  table[offset]?.map UInt8.toNat

/-- The number in two bytes at an offset. -/
def word? (table : Table) (offset : Nat) : Option Nat := do
  let high ← table.byte? offset
  let low ← table.byte? (offset + 1)
  return 256 * high + low

/-- The number in four bytes at an offset. -/
def long? (table : Table) (offset : Nat) : Option Nat := do
  let high ← table.word? offset
  let low ← table.word? (offset + 2)
  return 65536 * high + low

/-- The number with a sign that a number of two bytes stands for. -/
def signed (word : Nat) : Int :=
  if word < 32768 then word else (word : Int) - 65536

/-- The number with a sign in two bytes at an offset. -/
def short? (table : Table) (offset : Nat) : Option Int :=
  (table.word? offset).map signed

/-- Whether `count` entries of `size` bytes each, from `start` on, lie inside the table. -/
def holds (table : Table) (start count size : Nat) : Bool :=
  start + count * size ≤ table.size

/-- The bytes from `start` to `stop`, if the table has that many. -/
def slice? (table : Table) (start stop : Nat) : Option Table :=
  if start ≤ stop ∧ stop ≤ table.size then some (table.extract start stop) else none

end Table

/-- The marks with which a font file may open. -/
def knownMarks : List Nat := [0x00010000, 0x74727565, 0x4F54544F]

/-- The mark with which a collection of fonts opens. -/
def collectionMark : Nat := 0x74746366

/--
Where the directory of the font begins.  Of a collection the first font is used; it stands behind
the places of all fonts.
-/
def directoryStart? (file : Table) : Option Nat := do
  let mark ← file.long? 0
  if knownMarks.contains mark then return 4
  else if mark = collectionMark then
    let count ← file.long? 8
    let start ← file.long? 12
    if count = 0 ∨ ¬ file.holds 12 count 4 ∨ start < 12 + 4 * count then none
    else
      let mark ← file.long? start
      if knownMarks.contains mark then return start + 4 else none
  else none

/-- The name, the start and the length of a table. -/
structure Entry where
  name : Nat
  start : Nat
  length : Nat
  deriving DecidableEq, Repr

/-- The entry at an offset of the directory. -/
def entry? (file : Table) (offset : Nat) : Option Entry := do
  let name ← file.long? offset
  let start ← file.long? (offset + 8)
  let length ← file.long? (offset + 12)
  return ⟨name, start, length⟩

/-- The entries of the directory. -/
def directory? (file : Table) : Option (List Entry) := do
  let start ← directoryStart? file
  let count ← file.word? start
  (List.range count).mapM fun index => entry? file (start + 8 + 16 * index)

/-- The number that four letters of a table name stand for. -/
def nameOf (letters : String) : Nat :=
  letters.toList.foldl (fun number letter => 256 * number + letter.toNat) 0

/-- The table with the given name. -/
def table? (file : Table) (entries : List Entry) (letters : String) : Option Table := do
  let entry ← entries.reverse.find? fun entry => entry.name = nameOf letters
  file.slice? entry.start (entry.start + entry.length)

end LabelPress.Font
