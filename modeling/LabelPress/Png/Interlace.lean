import LabelPress.Png.Header
import LabelPress.Png.Scanline

/-!
# Passes

The pixels of a picture stand in one pass, or in seven passes that show it finer and finer.  A
pass holds the pixels at regular distances from its first one, as a picture of its own.
-/

namespace LabelPress.Png

/-- The pixels at regular distances. -/
structure Pass where
  /-- The column of the first pixel. -/
  left : Nat
  /-- The row of the first pixel. -/
  top : Nat
  /-- The distance of the columns. -/
  columnStep : Nat
  /-- The distance of the rows. -/
  rowStep : Nat
  deriving DecidableEq, Repr

namespace Pass

/-- The pass of all pixels. -/
def whole : Pass := ⟨0, 0, 1, 1⟩

/-- The seven passes. -/
def seven : List Pass :=
  [⟨0, 0, 8, 8⟩, ⟨4, 0, 8, 8⟩, ⟨0, 4, 4, 8⟩, ⟨2, 0, 4, 4⟩, ⟨0, 2, 2, 4⟩, ⟨1, 0, 2, 2⟩,
    ⟨0, 1, 1, 2⟩]

/-- The passes of a picture. -/
def ofHeader (header : Header) : List Pass :=
  if header.interlaced then seven else [whole]

/-- The number of columns of a pass over `width` columns. -/
def width (pass : Pass) (width : Nat) : Nat :=
  (width - pass.left + (pass.columnStep - 1)) / pass.columnStep

/-- The number of rows of a pass over `height` rows. -/
def height (pass : Pass) (height : Nat) : Nat :=
  (height - pass.top + (pass.rowStep - 1)) / pass.rowStep

/-- The number of rows in which a pass is stored; one without columns has none. -/
def rowCount (header : Header) (pass : Pass) : Nat :=
  if pass.width header.width = 0 then 0 else pass.height header.height

/-- The number of bytes in which a pass is stored, with the number of a filter for each row. -/
def storedBytes (header : Header) (pass : Pass) : Nat :=
  pass.rowCount header * (1 + header.rowBytes (pass.width header.width))

/-- Whether a pass holds the pixel at column `x` and row `y`. -/
def covers (pass : Pass) (x y : Nat) : Bool :=
  pass.left ≤ x ∧ (x - pass.left) % pass.columnStep = 0 ∧ pass.top ≤ y ∧
    (y - pass.top) % pass.rowStep = 0

end Pass

/-- The number of bytes in which a picture is stored. -/
def storedBytes (header : Header) : Nat :=
  (Pass.ofHeader header).foldl (fun count pass => count + pass.storedBytes header) 0

/-- The stored rows of a pass. -/
structure Layer where
  /-- The pass. -/
  pass : Pass
  /-- Its rows, from top to bottom. -/
  rows : Array (Array UInt8)
  deriving DecidableEq, Repr

namespace Layer

/-- Reads the rows of passes one after the other. -/
def read? (header : Header) : List Pass → List UInt8 → Option (List Layer)
  | [], _ => some []
  | pass :: passes, bytes =>
    let size := header.rowBytes (pass.width header.width)
    let step := max 1 (header.pixelBits / 8)
    match Scanline.rows? size step #[] (pass.rowCount header) bytes with
    | none => none
    | some (rows, rest) => (read? header passes rest).map (⟨pass, rows⟩ :: ·)

/-- The stored sample with a number in a row, each sample `depth` bits long. -/
def sampleOfRow (depth : Nat) (row : Array UInt8) (number : Nat) : Nat :=
  if depth = 16 then 256 * (row.getD (2 * number) 0).toNat + (row.getD (2 * number + 1) 0).toNat
  else
    let perByte := 8 / depth
    let byte := (row.getD (number / perByte) 0).toNat
    byte / Nat.pow 2 (8 - depth * (number % perByte + 1)) % Nat.pow 2 depth

/-- The stored sample with a number of the pixel at column `x` and row `y`. -/
def sample (header : Header) (layers : List Layer) (x y number : Nat) : Nat :=
  match layers.find? fun layer => layer.pass.covers x y with
  | none => 0
  | some layer =>
    let column := (x - layer.pass.left) / layer.pass.columnStep
    let row := layer.rows.getD ((y - layer.pass.top) / layer.pass.rowStep) #[]
    sampleOfRow header.depth row (column * header.color.samples + number)

end Layer

end LabelPress.Png
