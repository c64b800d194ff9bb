import LabelPress.Label
import LabelPress.Symbology.Qr.Segment

/-!
# Codewords of QR symbols

The bits of the segments are padded to the capacity of the symbol and cut into data codewords,
which are divided into blocks.  Each block gets error correction codewords: the remainder of a
division of polynomials over the field with 256 elements.  The blocks are then interleaved.
-/

namespace LabelPress.Qr

/-- Error correction codewords in each block, by level and version. -/
def correctionTable : QrLevel → Array Nat
  | .low =>
    #[7, 10, 15, 20, 26, 18, 20, 24, 30, 18, 20, 24, 26, 30, 22, 24, 28, 30, 28, 28, 28, 28, 30, 30,
      26, 28, 30, 30, 30, 30, 30, 30, 30, 30, 30, 30, 30, 30, 30, 30]
  | .medium =>
    #[10, 16, 26, 18, 24, 16, 18, 22, 22, 26, 30, 22, 22, 24, 24, 28, 28, 26, 26, 26, 26, 28, 28,
      28, 28, 28, 28, 28, 28, 28, 28, 28, 28, 28, 28, 28, 28, 28, 28, 28]
  | .quartile =>
    #[13, 22, 18, 26, 18, 24, 18, 22, 20, 24, 28, 26, 24, 20, 30, 24, 28, 28, 26, 30, 28, 30, 30,
      30, 30, 28, 30, 30, 30, 30, 30, 30, 30, 30, 30, 30, 30, 30, 30, 30]
  | .high =>
    #[17, 28, 22, 16, 22, 28, 26, 26, 24, 28, 24, 28, 22, 24, 24, 30, 28, 28, 26, 28, 30, 24, 30,
      30, 30, 30, 30, 30, 30, 30, 30, 30, 30, 30, 30, 30, 30, 30, 30, 30]

/-- The number of blocks, by level and version. -/
def blockTable : QrLevel → Array Nat
  | .low =>
    #[1, 1, 1, 1, 1, 2, 2, 2, 2, 4, 4, 4, 4, 4, 6, 6, 6, 6, 7, 8, 8, 9, 9, 10, 12, 12, 12, 13, 14,
      15, 16, 17, 18, 19, 19, 20, 21, 22, 24, 25]
  | .medium =>
    #[1, 1, 1, 2, 2, 4, 4, 4, 5, 5, 5, 8, 9, 9, 10, 10, 11, 13, 14, 16, 17, 17, 18, 20, 21, 23, 25,
      26, 28, 29, 31, 33, 35, 37, 38, 40, 43, 45, 47, 49]
  | .quartile =>
    #[1, 1, 2, 2, 4, 4, 6, 6, 8, 8, 8, 10, 12, 16, 12, 17, 16, 18, 21, 20, 23, 23, 25, 27, 29, 34,
      34, 35, 38, 40, 43, 45, 48, 51, 53, 56, 59, 62, 65, 68]
  | .high =>
    #[1, 1, 2, 4, 4, 4, 5, 6, 8, 8, 11, 11, 16, 16, 18, 16, 19, 21, 25, 25, 25, 34, 30, 32, 35, 37,
      40, 42, 45, 48, 51, 54, 57, 60, 63, 66, 70, 74, 77, 81]

/-- The modules on one side of a symbol. -/
def side (version : Nat) : Nat :=
  4 * version + 17

/-- The number of alignment patterns on one side. -/
def alignmentCount (version : Nat) : Nat :=
  if version = 1 then 0 else version / 7 + 2

/-- The distance between the middles of alignment patterns. -/
def alignmentStep (version : Nat) : Nat :=
  if version = 32 then 26
  else (4 * version + 2 * alignmentCount version + 1) / (2 * alignmentCount version - 2) * 2

/-- The columns, which are also the rows, of the middles of alignment patterns. -/
def alignments (version : Nat) : List Nat :=
  if version = 1 then []
  else
    6 :: (List.range (alignmentCount version - 1)).reverse.map fun index =>
      side version - 7 - index * alignmentStep version

/-- The modules of a symbol that hold codewords, the bits left over included. -/
def dataModules (version : Nat) : Nat :=
  let count := alignmentCount version
  let plain := (16 * version + 128) * version + 64
  let withAlignments := if version = 1 then plain else plain - ((25 * count - 10) * count - 55)
  if version < 7 then withAlignments else withAlignments - 36

/-- The number of codewords in a symbol. -/
def codewords (version : Nat) : Nat :=
  dataModules version / 8

/-- Error correction codewords in each block of a symbol. -/
def correctionSize (level : QrLevel) (version : Nat) : Nat :=
  (correctionTable level).getD (version - 1) 0

/-- The blocks of a symbol. -/
def blockCount (level : QrLevel) (version : Nat) : Nat :=
  (blockTable level).getD (version - 1) 0

/-- The data codewords in a symbol. -/
def dataCodewords (level : QrLevel) (version : Nat) : Nat :=
  codewords version - correctionSize level version * blockCount level version

/-- The bits of data that a symbol holds. -/
def capacity (level : QrLevel) (version : Nat) : Nat :=
  8 * dataCodewords level version

/-- The smallest version from `version` on, of `count` versions, that holds `length` bits. -/
def smallestFrom (level : QrLevel) (length version : Nat) : (count : Nat) → Option Nat
  | 0 => none
  | count + 1 =>
    if length ≤ capacity level version then some version
    else smallestFrom level length (version + 1) count

/-- The smallest version that holds `length` bits. -/
def smallestVersion? (level : QrLevel) (length : Nat) : Option Nat :=
  smallestFrom level length 1 40

/-- The sum of numbers. -/
def sum (numbers : List Nat) : Nat :=
  numbers.foldl (· + ·) 0

/-- The segments of data and the version that holds them, for the first class of versions. -/
def fit? (level : QrLevel) (bytes : List Nat) (versions : VersionClass) :
    Option (Nat × List Segment) :=
  let segments := Segment.plan versions bytes
  let length := sum (segments.map (Segment.size versions))
  if length ≤ capacity level versions.last then
    (smallestVersion? level length).map fun version => (version, segments)
  else none

/-- The segments of data and the version that holds them. -/
def choose? (level : QrLevel) (bytes : List Nat) : Option (Nat × List Segment) :=
  [VersionClass.small, .medium, .large].findSome? (fit? level bytes)

/-- The codewords whose bits these are; a codeword that is cut off is filled with zeros. -/
def pack : List Bool → List Nat
  | [] => []
  | bit :: rest =>
    let byte := (bit :: rest).take 8
    byte.foldl (fun number bit => 2 * number + bit.toNat) 0 * Nat.pow 2 (8 - byte.length) ::
      pack (rest.drop 7)
termination_by bits => bits.length
decreasing_by
  simp only [List.length_cons, List.length_drop]
  omega

/-- The codewords that fill up a symbol, in turns. -/
def padding (count : Nat) : List Nat :=
  (List.range count).map fun index => if index % 2 = 0 then 0xEC else 0x11

/-- The data codewords of segments in a symbol. -/
def dataWords (level : QrLevel) (version : Nat) (segments : List Segment) : List Nat :=
  let content := segments.flatMap (Segment.toBits (.ofVersion version))
  let terminator := List.replicate (min 4 (capacity level version - content.length)) false
  let words := pack (content ++ terminator)
  words ++ padding (dataCodewords level version - words.length)

/-- Twice a field element. -/
def double (element : Nat) : Nat :=
  if 128 ≤ element then (2 * element) ^^^ 0x11D else 2 * element

/-- The product of two field elements, by the lowest `width` bits of the second. -/
def multiplyBits (first second : Nat) : (width : Nat) → Nat
  | 0 => 0
  | width + 1 =>
    double (multiplyBits first (second / 2) width) ^^^ (if second % 2 = 1 then first else 0)

/-- The product of two field elements. -/
def multiply (first second : Nat) : Nat :=
  multiplyBits first second 8

/--
The generator polynomial of the given degree without its leading coefficient, highest power
first; `root` is the next power of two that becomes a root.
-/
def generatorFrom (root : Nat) (coefficients : List Nat) : (count : Nat) → List Nat
  | 0 => coefficients
  | count + 1 =>
    let shifted := coefficients ++ [0]
    let scaled := (1 :: coefficients).map (multiply root)
    generatorFrom (double root) (List.zipWith (· ^^^ ·) shifted scaled) count

/-- The generator polynomial whose roots are the first `degree` powers of two. -/
def generator (degree : Nat) : List Nat :=
  generatorFrom 1 [] degree

/-- One step of the division by the generator polynomial. -/
def divideStep (generator remainder : List Nat) (word : Nat) : List Nat :=
  let factor := word ^^^ remainder.headD 0
  List.zipWith (fun word coefficient => word ^^^ multiply coefficient factor)
    (remainder.tail ++ [0]) generator

/-- The error correction codewords of a block. -/
def correction (generator block : List Nat) : List Nat :=
  block.foldl (divideStep generator) (List.replicate generator.length 0)

/-- The blocks of the given sizes. -/
def divide : (sizes : List Nat) → (words : List Nat) → List (List Nat)
  | [], _ => []
  | size :: sizes, words => words.take size :: divide sizes (words.drop size)

/-- The sizes of blocks: the longer ones, which have one codeword more, come last. -/
def blockSizes (words blocks : Nat) : List Nat :=
  List.replicate (blocks - words % blocks) (words / blocks) ++
    List.replicate (words % blocks) (words / blocks + 1)

/-- Words of all blocks in turns, the first of each, then the second, and so on. -/
def interleave (blocks : List (List Nat)) : List Nat :=
  let arrays := blocks.map List.toArray
  (List.range ((blocks.map List.length).foldl max 0)).flatMap fun index =>
    arrays.filterMap fun block => block[index]?

/-- All codewords of a symbol in the order in which they are placed. -/
def finalWords (level : QrLevel) (version : Nat) (words : List Nat) : List Nat :=
  let blocks := divide (blockSizes words.length (blockCount level version)) words
  let generator := generator (correctionSize level version)
  interleave blocks ++ interleave (blocks.map (correction generator))

end LabelPress.Qr
