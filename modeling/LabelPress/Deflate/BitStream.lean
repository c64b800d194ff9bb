/-!
# Bit streams

Compressed data is read bit by bit, the low bit of a byte first.  Every reading step gives back
the stream behind what was read, and `BitStream.size` says that it is shorter.
-/

namespace LabelPress

/-- Bits yet to be read. -/
structure BitStream where
  /-- The bits left of a byte that has been begun. -/
  pending : List Bool
  /-- The bytes behind it. -/
  bytes : List UInt8
  deriving DecidableEq, Repr

namespace BitStream

/-- The bits of a byte, the low bit first. -/
def bitsOf (byte : UInt8) : List Bool :=
  (List.range 8).map byte.toNat.testBit

@[simp]
theorem length_bitsOf (byte : UInt8) : (bitsOf byte).length = 8 := by
  simp [bitsOf]

/-- The stream of whole bytes. -/
def ofBytes (bytes : List UInt8) : BitStream :=
  ⟨[], bytes⟩

/-- The number of bits to be read. -/
def size (stream : BitStream) : Nat :=
  stream.pending.length + 8 * stream.bytes.length

/-- Whether at least `count` bits are there to be read. -/
def holds (count : Nat) (stream : BitStream) : Bool :=
  count ≤ stream.pending.length + 8 * (stream.bytes.take count).length

theorem holds_iff {count : Nat} {stream : BitStream} :
    stream.holds count = true ↔ count ≤ stream.size := by
  simp only [holds, size, List.length_take, decide_eq_true_eq]
  omega

/-- The stream that ends `count` bytes behind the byte that has been begun. -/
def cut (count : Nat) (stream : BitStream) : BitStream :=
  { stream with bytes := stream.bytes.take count }

/-- The stream with a bit of zero for each bit of two bytes behind its end. -/
def padded (stream : BitStream) : BitStream :=
  { stream with bytes := stream.bytes ++ [0, 0] }

/-- The first bit and what stands behind it. -/
def bit? (stream : BitStream) : Option (Bool × BitStream) :=
  match stream with
  | ⟨bit :: pending, bytes⟩ => some (bit, ⟨pending, bytes⟩)
  | ⟨[], byte :: bytes⟩ => some (byte.toNat.testBit 0, ⟨(bitsOf byte).tail, bytes⟩)
  | ⟨[], []⟩ => none

theorem size_of_bit? {stream rest : BitStream} {bit : Bool}
    (read : stream.bit? = some (bit, rest)) : rest.size + 1 = stream.size := by
  obtain ⟨pending, bytes⟩ := stream
  cases pending with
  | cons first pending =>
    simp only [bit?, Option.some.injEq, Prod.mk.injEq] at read
    obtain ⟨-, rfl⟩ := read
    simp only [size, List.length_cons]
    omega
  | nil =>
    cases bytes with
    | nil => simp [bit?] at read
    | cons byte bytes =>
      simp only [bit?, Option.some.injEq, Prod.mk.injEq] at read
      obtain ⟨-, rfl⟩ := read
      simp only [size, List.length_cons, List.length_tail, length_bitsOf, List.length_nil]
      omega

/-- The number in the next `count` bits, the low bit first. -/
def number? : (count : Nat) → BitStream → Option (Nat × BitStream)
  | 0, stream => some (0, stream)
  | count + 1, stream =>
    match stream.bit? with
    | none => none
    | some (bit, rest) =>
      match number? count rest with
      | none => none
      | some (number, rest) => some (bit.toNat + 2 * number, rest)

theorem size_of_number? {count number : Nat} {stream rest : BitStream}
    (read : number? count stream = some (number, rest)) : rest.size + count = stream.size := by
  induction count generalizing number stream with
  | zero =>
    simp only [number?, Option.some.injEq, Prod.mk.injEq] at read
    simp [read.2]
  | succ count ih =>
    unfold number? at read
    split at read
    · simp at read
    · rename_i bit behind first
      split at read
      · simp at read
      · rename_i higher last more
        simp only [Option.some.injEq, Prod.mk.injEq] at read
        obtain ⟨-, rfl⟩ := read
        have := size_of_bit? first
        have := ih more
        omega

/-- The whole bytes behind the byte that has been begun. -/
def aligned (stream : BitStream) : List UInt8 :=
  stream.bytes

end BitStream

end LabelPress
