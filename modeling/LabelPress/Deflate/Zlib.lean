import LabelPress.BigEndian
import LabelPress.Deflate.Inflate

/-!
# The zlib format

A compressed stream between two bytes that announce it and a check sum of its data.  Reading takes
the bytes that are wanted and does not ask for more: the check sum may be wrong or missing.
-/

namespace LabelPress

namespace Zlib

/-- The modulus of the check sum. -/
def modulus : Nat := 65521

/-- The check sum: the sum of the bytes, and above it the sum of all those sums. -/
def checksum (data : List UInt8) : Nat :=
  let (low, high) := data.foldl (fun (low, high) byte =>
    let low := (low + byte.toNat) % modulus
    (low, (high + low) % modulus)) (1, 0)
  65536 * high + low

/--
Whether two bytes announce a stream: the method is deflating, a window of at most 32768 bytes is
asked for, there is no preset dictionary, and the two bytes are a multiple of 31.
-/
def announces (method flags : UInt8) : Bool :=
  method.toNat % 16 = 8 ∧ method.toNat / 16 ≤ 7 ∧ flags.toNat.testBit 5 = false ∧
    (256 * method.toNat + flags.toNat) % 31 = 0

/-- How many bytes of parts stand between the first `count` bytes and the end of a part. -/
def atHand : (parts : List (List UInt8)) → (count : Nat) → Nat
  | [], _ => 0
  | part :: parts, count =>
    if count ≤ part.length then part.length - count else atHand parts (count - part.length)

/--
The first `limit` bytes of the data of a stream that comes in parts.  What follows the last of them
has to be in order as far as it belongs to the same part.
-/
def decompress? (limit : Nat) (parts : List (List UInt8)) : Option (Array UInt8) :=
  match parts.flatten with
  | method :: flags :: bytes =>
    if announces method flags then
      match Deflate.fill? limit #[] (.ofBytes bytes) with
      | none => none
      | some filled =>
        let count := 2 + (bytes.length - filled.rest.bytes.length)
        let rest := filled.rest.cut (atHand parts count)
        if filled.block.all fun block => block.isSound rest then some filled.output else none
    else none
  | _ => none

/-- A stream that holds the data as it is. -/
def compress (data : List UInt8) : List UInt8 :=
  [0x78, 0x01] ++ Deflate.deflate data ++ BigEndian.bytes 4 (checksum data)

end Zlib

end LabelPress
