import LabelPress.Label
import LabelPress.Text.Blank
import LabelPress.Text.Integer

/-!
# Bitmaps in markup

A bitmap is written row by row in hexadecimal digits, two for a byte.  The letters `G` to `Y` and
`g` to `z` before a digit repeat it 1 to 19 times and 20 to 400 times; several of them add up.  A
comma fills the rest of a row with zeros, an exclamation mark fills it with ones, and a colon in
place of a row repeats the row before it.  Blanks are skipped.  Rows that are not written are
zero, and what is written behind the last row is not looked at.
-/

namespace LabelPress.Markup

open LabelPress.Text

/-- What is wrong with the parameters or the data of a bitmap. -/
inductive GraphicFault where
  /-- A count of bytes is not a number. -/
  | count (what value : String)
  /-- The data are not in hexadecimal digits. -/
  | format (name : String)
  /-- The data are marked as base64. -/
  | base64
  /-- A count of bytes is zero. -/
  | emptyCount
  /-- The bitmap is larger than supported. -/
  | tooLarge (total : Nat)
  /-- A row is longer than the whole bitmap. -/
  | rowTooLong (rowBytes total : Nat)
  /-- A repeated row begins inside another one. -/
  | repeatInsideRow
  /-- A character that is no part of the notation. -/
  | unexpected (character : Char)
  deriving DecidableEq, Repr

/-- The text of a fault. -/
def GraphicFault.message : GraphicFault → String
  | count what value => "invalid " ++ what ++ " '" ++ value ++ "'"
  | format name => "unsupported format '" ++ name ++ "', only ASCII hex (A) is supported"
  | base64 => "base64 encoded data is not supported"
  | emptyCount => "byte counts must be positive"
  | tooLarge total => toString total ++ " bytes exceeds the supported size"
  | rowTooLong rowBytes total =>
    toString rowBytes ++ " bytes per row exceeds the " ++ toString total ++ " byte total"
  | repeatInsideRow => "row repeat in the middle of a row"
  | unexpected character =>
    "unexpected character '" ++ String.singleton character ++ "' in data"

namespace Graphic

/-- The number of bytes up to which bitmaps are supported. -/
def maxBytes : Nat := 16 * 1024 * 1024

/-- The repetitions that a letter adds. -/
def repeats? (character : Char) : Option Nat :=
  if 'G' ≤ character ∧ character ≤ 'Y' then some (character.toNat - 'G'.toNat + 1)
  else if 'g' ≤ character ∧ character ≤ 'z' then some ((character.toNat - 'g'.toNat + 1) * 20)
  else none

/-- The bytes of digits in pairs; the first digit of a pair is the upper half of the byte. -/
def pack : List Nat → List UInt8
  | high :: low :: rest => UInt8.ofNat (16 * high + low) :: pack rest
  | _ => []

/-- A bitmap that is being unpacked. -/
structure Unpacking where
  /-- Repetitions that the next digit takes. -/
  repeats : Nat
  /-- The digits of the open row, the last one first. -/
  row : List Nat
  /-- The number of digits in the open row. -/
  rowLength : Nat
  /-- The digits of the row before it. -/
  previous : List Nat
  /-- The bytes of the closed rows. -/
  packed : Array UInt8
  deriving Repr

namespace Unpacking

/-- Nothing is unpacked yet. -/
def empty : Unpacking := ⟨0, [], 0, [], #[]⟩

/-- Closes the open row of `width` digits; digits that it lacks are `fill`. -/
def closeRow (width fill : Nat) (state : Unpacking) : Unpacking :=
  let digits := state.row.reverse ++ List.replicate (width - state.rowLength) fill
  { state with
    row := [], rowLength := 0, previous := digits, packed := state.packed ++ pack digits }

/-- Writes a digit; a full row is closed. -/
def push (width digit : Nat) (state : Unpacking) : Unpacking :=
  let state := { state with row := digit :: state.row, rowLength := state.rowLength + 1 }
  if state.rowLength = width then state.closeRow width 0 else state

/-- Writes a digit several times. -/
def pushMany (width digit : Nat) : Nat → Unpacking → Unpacking
  | 0, state => state
  | count + 1, state => pushMany width digit count (state.push width digit)

/-- Writes a digit as often as the letters before it say, and at least once. -/
def pushRun (width digit : Nat) (state : Unpacking) : Unpacking :=
  { pushMany width digit (max state.repeats 1) state with repeats := 0 }

/-- Writes the row before the open one again; the row before the first one is zero. -/
def repeatRow (width : Nat) (state : Unpacking) : Unpacking :=
  { state with
    row := state.previous.reverse, rowLength := state.previous.length }.closeRow width 0

/-- Takes up one character of the data. -/
def step (width : Nat) (state : Unpacking) (character : Char) :
    Except GraphicFault Unpacking :=
  match repeats? character with
  | some count => .ok { state with repeats := state.repeats + count }
  | none =>
    if character = ',' then .ok (state.closeRow width 0)
    else if character = '!' then .ok (state.closeRow width 15)
    else if character = ':' then
      if state.row.isEmpty then .ok (state.repeatRow width) else .error .repeatInsideRow
    else
      match hexDigit? character with
      | some digit => .ok (state.pushRun width digit)
      | none => if isBlank character then .ok state else .error (.unexpected character)

/-- Takes up characters until `total` bytes are there. -/
def run (width total : Nat) (state : Unpacking) : List Char → Except GraphicFault Unpacking
  | [] => .ok state
  | character :: rest =>
    if total ≤ state.packed.size then .ok state
    else
      match state.step width character with
      | .ok state => state.run width total rest
      | .error fault => .error fault

/-- Closes a row that is still open. -/
def finish (width : Nat) (state : Unpacking) : Unpacking :=
  if state.row.isEmpty then state else state.closeRow width 0

end Unpacking

/-- The first `size` bytes; those that are missing are zero. -/
def resize (size : Nat) (bytes : Array UInt8) : Array UInt8 :=
  bytes.take size ++ Array.replicate (size - bytes.size) 0

/-- The bytes of `rows` rows of `rowBytes` bytes each. -/
def unpack (data : List Char) (rowBytes rows : Nat) : Except GraphicFault (Array UInt8) :=
  match Unpacking.empty.run (2 * rowBytes) (rowBytes * rows) data with
  | .ok state => .ok (resize (rowBytes * rows) (state.finish (2 * rowBytes)).packed)
  | .error fault => .error fault

/-- A text up to the first comma, and what stands behind that comma if there is one. -/
def splitComma (text : List Char) : List Char × Option (List Char) :=
  match text.dropWhile (· ≠ ',') with
  | [] => (text, none)
  | _ :: rest => (text.takeWhile (· ≠ ','), some rest)

/-- A count of bytes, which fits 64 bits. -/
def count (what : String) (value : List Char) : Except GraphicFault Nat :=
  match natural? (trim value) with
  | some number =>
    if number ≤ 0xFFFFFFFFFFFFFFFF then .ok number
    else .error (.count what (String.ofList (trim value)))
  | none => .error (.count what (String.ofList (trim value)))

/-- Whether data open with the mark of a base64 encoding. -/
def isBase64 (data : List Char) : Bool :=
  let mark := ((trimStart data).take 5).map Char.toUpper
  mark = ":Z64:".toList || mark = ":B64:".toList

/-- The four parameters of a bitmap command that matter, each in one piece. -/
structure Parts where
  /-- The notation of the data. -/
  format : List Char
  /-- The number of bytes. -/
  total : List Char
  /-- The number of bytes in a row. -/
  row : List Char
  /-- The data. -/
  data : List Char
  deriving Repr

/-- Cuts the parameters at their first four commas; the third parameter does not matter. -/
def Parts.ofParams (params : List Char) : Parts :=
  let (format, rest) := splitComma params
  let (total, rest) := splitComma (rest.getD [])
  let (_, rest) := splitComma (rest.getD [])
  let (row, rest) := splitComma (rest.getD [])
  ⟨format, total, row, rest.getD []⟩

/-- The bitmap that the parameters of a bitmap command describe. -/
def ofParams (params : List Char) : Except GraphicFault Content := do
  let parts := Parts.ofParams params
  let total ← count "total bytes" parts.total
  let rowBytes ← count "bytes per row" parts.row
  let format := trim parts.format
  if format ≠ [] ∧ format.map Char.toUpper ≠ ['A'] then
    throw (.format (String.ofList format))
  if isBase64 parts.data then
    throw .base64
  if rowBytes = 0 ∨ total = 0 then
    throw .emptyCount
  if maxBytes < total then
    throw (.tooLarge total)
  if total < rowBytes then
    throw (.rowTooLong rowBytes total)
  let rows := (total + rowBytes - 1) / rowBytes
  let data ← unpack parts.data rowBytes rows
  return .bitmap rowBytes rows data

end Graphic

end LabelPress.Markup
