/-!
# Scanlines

A row of pixels is stored behind the number of a filter.  A filter stores every byte as its
difference from what the bytes before it let expect: the byte of the pixel to the left, the one
above, their mean, or the one of three neighbours that comes closest to a plane through them.
-/

namespace LabelPress.Png

/-- What the bytes of a row are compared with. -/
inductive Filter where
  | plain
  | left
  | above
  | average
  | paeth
  deriving DecidableEq, Repr

namespace Filter

/-- The filter with a number. -/
def ofByte? (byte : UInt8) : Option Filter :=
  match byte.toNat with
  | 0 => some plain
  | 1 => some left
  | 2 => some above
  | 3 => some average
  | 4 => some paeth
  | _ => none

/--
The neighbour that comes closest to `left + above - corner`; on equal terms the left one goes
before the one above, and that before the corner.
-/
def closest (left above corner : UInt8) : UInt8 :=
  let estimate : Int := (left.toNat : Int) + above.toNat - corner.toNat
  let distance (byte : UInt8) : Nat := (estimate - byte.toNat).natAbs
  if distance left ≤ distance above ∧ distance left ≤ distance corner then left
  else if distance above ≤ distance corner then above
  else corner

/-- The byte that is expected between its neighbours. -/
def expected (filter : Filter) (left above corner : UInt8) : UInt8 :=
  match filter with
  | plain => 0
  | .left => left
  | .above => above
  | average => UInt8.ofNat ((left.toNat + above.toNat) / 2)
  | paeth => closest left above corner

end Filter

namespace Scanline

/--
The bytes of a row behind a filter; a pixel has `step` bytes, and `previous` is the row above.
-/
def restore (filter : Filter) (step : Nat) (previous : Array UInt8) (stored : List UInt8) :
    Array UInt8 :=
  stored.foldl (fun row byte =>
    let behind (bytes : Array UInt8) : UInt8 :=
      if step ≤ row.size then bytes.getD (row.size - step) 0 else 0
    row.push (byte + filter.expected (behind row) (previous.getD row.size 0) (behind previous))) #[]

/-- The rows of `size` bytes each that are stored one after the other, and what follows them. -/
def rows? (size step : Nat) (done : Array (Array UInt8)) :
    (count : Nat) → List UInt8 → Option (Array (Array UInt8) × List UInt8)
  | 0, bytes => some (done, bytes)
  | _ + 1, [] => none
  | count + 1, number :: bytes =>
    match Filter.ofByte? number with
    | none => none
    | some filter =>
      let stored := bytes.take size
      if stored.length = size then
        let row := restore filter step (done.back?.getD #[]) stored
        rows? size step (done.push row) count (bytes.drop size)
      else none

end Scanline

end LabelPress.Png
