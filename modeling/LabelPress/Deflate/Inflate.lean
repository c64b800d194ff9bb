import LabelPress.Deflate.Block

/-!
# Inflating

A word of the first code of a block stands for a byte, for the end of the block, or for the length
of a string that has occurred before; in the last case a word of the second code says how far back.

Whoever reads knows how many bytes are wanted.  `fill?` stops at the last of them, wherever it
stands, and `Block.isSound` goes on from there as far as no further byte is needed: over the end of
the block and over the heads of blocks that hold nothing.
-/

namespace LabelPress

namespace Deflate

/-- Whether a block ends at a symbol: at its own one, or at one that stands for nothing. -/
def endsBlock (symbol : Nat) : Bool :=
  symbol = endSymbol ∨ symbolCount ≤ symbol

/-- The least length of each symbol behind the end, and the number of bits that add to it. -/
def lengthTable : List (Nat × Nat) :=
  [(3, 0), (4, 0), (5, 0), (6, 0), (7, 0), (8, 0), (9, 0), (10, 0), (11, 1), (13, 1), (15, 1),
    (17, 1), (19, 2), (23, 2), (27, 2), (31, 2), (35, 3), (43, 3), (51, 3), (59, 3), (67, 4),
    (83, 4), (99, 4), (115, 4), (131, 5), (163, 5), (195, 5), (227, 5), (258, 0)]

/-- The least distance of each symbol, and the number of bits that add to it. -/
def distanceTable : List (Nat × Nat) :=
  [(1, 0), (2, 0), (3, 0), (4, 0), (5, 1), (7, 1), (9, 2), (13, 2), (17, 3), (25, 3), (33, 4),
    (49, 4), (65, 5), (97, 5), (129, 6), (193, 6), (257, 7), (385, 7), (513, 8), (769, 8),
    (1025, 9), (1537, 9), (2049, 10), (3073, 10), (4097, 11), (6145, 11), (8193, 12), (12289, 12),
    (16385, 13), (24577, 13)]

/-- The number of a symbol of a table. -/
def tableNumber? (table : List (Nat × Nat)) (symbol : Nat) (stream : BitStream) :
    Option (Nat × BitStream) :=
  match table[symbol]? with
  | none => none
  | some (least, bits) =>
    (BitStream.number? bits stream).map fun (more, rest) => (least + more, rest)

theorem size_of_tableNumber? {table : List (Nat × Nat)} {symbol number : Nat}
    {stream rest : BitStream} (read : tableNumber? table symbol stream = some (number, rest)) :
    rest.size ≤ stream.size := by
  unfold tableNumber? at read
  split at read
  · simp at read
  · simp only [Option.map_eq_some_iff, Prod.mk.injEq, Prod.exists] at read
    obtain ⟨_, _, more, -, rfl⟩ := read
    have := BitStream.size_of_number? more
    omega

/-- Repeats the bytes that stand `distance` places back, `length` of them. -/
def copyBack (distance : Nat) : (length : Nat) → Array UInt8 → Array UInt8
  | 0, output => output
  | length + 1, output =>
    copyBack distance length (output.push (output.getD (output.size - distance) 0))

/-- Reads the distance behind a length, and repeats a string. -/
def repeatString? (codes : Codes) (length : Nat) (output : Array UInt8) (stream : BitStream) :
    Option (Array UInt8 × BitStream) :=
  match codes.distances.symbol? stream with
  | none => none
  | some (symbol, rest) =>
    match tableNumber? distanceTable symbol rest with
    | none => none
    | some (distance, rest) =>
      if distance ≤ output.size then some (copyBack distance length output, rest) else none

theorem size_of_repeatString? {codes : Codes} {length : Nat} {output behind : Array UInt8}
    {stream rest : BitStream}
    (read : repeatString? codes length output stream = some (behind, rest)) :
    rest.size ≤ stream.size := by
  unfold repeatString? at read
  split at read
  · simp at read
  · rename_i word
    split at read
    · simp at read
    · rename_i number
      have := PrefixCode.size_of_symbol? word
      have := size_of_tableNumber? number
      split at read
      · simp only [Option.some.injEq, Prod.mk.injEq] at read
        obtain ⟨-, rfl⟩ := read
        omega
      · simp at read

/-- The greatest number of bits of two words that are looked up as one. -/
def pairBits : Nat := 12

/--
Whether the word of a byte, between `stream` and `rest`, has to wait for more data.  Two words of
bytes that fit into `pairBits` are looked up as one, unless the second one is a single bit; behind
the end of the data the bits count as zeros for that.
-/
def waits (codes : Codes) (stream rest : BitStream) : Bool :=
  match rest.bytes with
  | _ :: _ :: _ => false
  | _ =>
    match codes.contents.symbol? rest.padded with
    | none => false
    | some (symbol, behind) =>
      let first := stream.size - rest.size
      let second := rest.padded.size - behind.size
      symbol < endSymbol ∧ 2 ≤ second ∧ first + second ≤ pairBits ∧ rest.size < second

/-- What a word of the contents does. -/
inductive Step where
  /-- The block ends. -/
  | done (output : Array UInt8) (rest : BitStream)
  /-- More words follow. -/
  | more (output : Array UInt8) (rest : BitStream)

/-- Reads one word of the contents, and the string that it announces. -/
def step? (codes : Codes) (output : Array UInt8) (stream : BitStream) : Option Step :=
  match codes.contents.symbol? stream with
  | none => none
  | some (symbol, rest) =>
    if symbol < endSymbol then
      if waits codes stream rest then none else some (.more (output.push (UInt8.ofNat symbol)) rest)
    else if endsBlock symbol then some (.done output rest)
    else
      match tableNumber? lengthTable (symbol - (endSymbol + 1)) rest with
      | none => none
      | some (length, rest) =>
        (repeatString? codes length output rest).map fun (output, rest) => .more output rest

theorem size_of_step? {codes : Codes} {output behind : Array UInt8} {stream rest : BitStream}
    (read : step? codes output stream = some (.more behind rest)) : rest.size < stream.size := by
  unfold step? at read
  split at read
  · simp at read
  · rename_i word
    have := PrefixCode.size_of_symbol? word
    split at read
    · split at read
      · simp at read
      · simp only [Option.some.injEq, Step.more.injEq] at read
        obtain ⟨-, rfl⟩ := read
        omega
    · split at read
      · simp at read
      · split at read
        · simp at read
        · rename_i number
          simp only [Option.map_eq_some_iff, Step.more.injEq, Prod.exists] at read
          obtain ⟨_, _, string, -, rfl⟩ := read
          have := size_of_tableNumber? number
          have := size_of_repeatString? string
          omega

theorem size_of_step?_done {codes : Codes} {output behind : Array UInt8}
    {stream rest : BitStream} (read : step? codes output stream = some (.done behind rest)) :
    rest.size < stream.size := by
  unfold step? at read
  split at read
  · simp at read
  · rename_i word
    have := PrefixCode.size_of_symbol? word
    split at read
    · split at read <;> simp at read
    · split at read
      · simp only [Option.some.injEq, Step.done.injEq] at read
        obtain ⟨-, rfl⟩ := read
        omega
      · split at read <;> simp at read

/-- How far a block has been read. -/
inductive Progress where
  /-- The block has ended, and more bytes are wanted. -/
  | ended (output : Array UInt8) (rest : BitStream)
  /-- All bytes are there; `left` is the rest of the block, unless they end inside a string. -/
  | full (output : Array UInt8) (left : Option Body) (rest : BitStream)

/-- Reads words until the block ends or there are `limit` bytes. -/
def codedBytes? (limit : Nat) (codes : Codes) (output : Array UInt8) (stream : BitStream) :
    Option Progress :=
  if output.size = limit then some (.full output (some (.coded codes)) stream)
  else if limit < output.size then some (.full (output.take limit) none stream)
  else
    match _found : step? codes output stream with
    | none => none
    | some (.done output rest) => some (.ended output rest)
    | some (.more output rest) => codedBytes? limit codes output rest
termination_by stream.size
decreasing_by exact size_of_step? _found

theorem size_of_codedBytes? {limit : Nat} {codes : Codes} {output behind : Array UInt8}
    {stream rest : BitStream}
    (read : codedBytes? limit codes output stream = some (.ended behind rest)) :
    rest.size ≤ stream.size := by
  fun_induction codedBytes? limit codes output stream with
  | case1 => simp at read
  | case2 => simp at read
  | case3 => simp at read
  | case4 output stream _ _ behind next found =>
    simp only [Option.some.injEq, Progress.ended.injEq] at read
    obtain ⟨-, rfl⟩ := read
    exact Nat.le_of_lt (size_of_step?_done found)
  | case5 _ stream _ _ output next found ih =>
    have := size_of_step? found
    have := ih read
    omega

/-- Takes bytes as they are until all of the block or `limit` bytes are there. -/
def storedBytes? (limit length : Nat) (output : Array UInt8) (stream : BitStream) :
    Option Progress :=
  let count := min length (limit - output.size)
  let bytes := stream.aligned.take count
  if bytes.length < count then none
  else
    let output := output ++ bytes.toArray
    let rest := BitStream.ofBytes (stream.aligned.drop count)
    if output.size < limit then some (.ended output rest)
    else some (.full output (some (.stored (length - count))) rest)

theorem size_of_storedBytes? {limit length : Nat} {output behind : Array UInt8}
    {stream rest : BitStream}
    (read : storedBytes? limit length output stream = some (.ended behind rest)) :
    rest.size ≤ stream.size := by
  unfold storedBytes? at read
  dsimp only at read
  split at read
  · simp at read
  · split at read
    · simp only [Option.some.injEq, Progress.ended.injEq] at read
      obtain ⟨-, rfl⟩ := read
      simp only [BitStream.size, BitStream.ofBytes, BitStream.aligned, List.length_nil,
        List.length_drop]
      omega
    · simp at read

/-- Reads what a block holds until its end or until there are `limit` bytes. -/
def Body.read? (limit : Nat) (body : Body) (output : Array UInt8) (stream : BitStream) :
    Option Progress :=
  match body with
  | .stored length => storedBytes? limit length output stream
  | .coded codes => codedBytes? limit codes output stream

theorem Body.size_of_read? {limit : Nat} {body : Body} {output behind : Array UInt8}
    {stream rest : BitStream} (read : body.read? limit output stream = some (.ended behind rest)) :
    rest.size ≤ stream.size := by
  cases body with
  | stored length => exact size_of_storedBytes? read
  | coded codes => exact size_of_codedBytes? read

/-- All bytes that were wanted. -/
structure Filled where
  /-- The bytes. -/
  output : Array UInt8
  /-- What is left of the block of the last byte, unless that stands inside a string. -/
  block : Option Block
  /-- What follows. -/
  rest : BitStream
  deriving DecidableEq, Repr

/-- Reads blocks until there are `limit` bytes. -/
def fill? (limit : Nat) (output : Array UInt8) (stream : BitStream) : Option Filled :=
  match _head : head stream with
  | .error _ => none
  | .ok (block, rest) =>
    match _body : block.body.read? limit output rest with
    | none => none
    | some (.full output left rest) => some ⟨output, left.map fun body => ⟨block.last, body⟩, rest⟩
    | some (.ended output rest) => if block.last then none else fill? limit output rest
termination_by stream.size
decreasing_by
  have := size_of_head _head
  have := Body.size_of_read? _body
  omega

namespace Block

/--
What stands behind a block of which no further byte is needed, if it ends here.  The end is looked
for where the longest word would fit.
-/
def behind? (block : Block) (stream : BitStream) : Option BitStream :=
  match block.body with
  | .stored length => if length = 0 then some stream else none
  | .coded codes =>
    if stream.holds PrefixCode.maxLength then
      match codes.contents.symbol? stream with
      | none => none
      | some (symbol, rest) => if symbol = endSymbol then some rest else none
    else none

theorem size_of_behind? {block : Block} {stream rest : BitStream}
    (read : block.behind? stream = some rest) : rest.size ≤ stream.size := by
  unfold behind? at read
  split at read
  · split at read
    · simp only [Option.some.injEq] at read
      simp [read]
    · simp at read
  · split at read
    · split at read
      · simp at read
      · rename_i word
        split at read
        · simp only [Option.some.injEq] at read
          subst read
          exact Nat.le_of_lt (PrefixCode.size_of_symbol? word)
        · simp at read
    · simp at read

/--
Whether the heads of blocks are in order up to the next byte that a block holds, as far as they
are at hand.
-/
def isSound (block : Block) (stream : BitStream) : Bool :=
  match _behind : block.behind? stream with
  | none => true
  | some rest =>
    if block.last then true
    else
      match _head : head rest with
      | .error .cutOff => true
      | .error .damaged => false
      | .ok (block, rest) => block.isSound rest
termination_by stream.size
decreasing_by
  have := size_of_behind? _behind
  have := size_of_head _head
  omega

end Block

/-- The greatest number of bytes of a block that holds them as they are. -/
def storedSize : Nat := 65535

/-- A block that holds `bytes` as they are. -/
def storedBlock (last : Bool) (bytes : List UInt8) : List UInt8 :=
  let length := bytes.length
  let complement := storedSize - length
  [if last then 1 else 0, UInt8.ofNat length, UInt8.ofNat (length / 256), UInt8.ofNat complement,
    UInt8.ofNat (complement / 256)] ++ bytes

/-- A stream that holds `bytes` as they are. -/
def deflate (bytes : List UInt8) : List UInt8 :=
  if bytes.length ≤ storedSize then storedBlock true bytes
  else storedBlock false (bytes.take storedSize) ++ deflate (bytes.drop storedSize)
termination_by bytes.length
decreasing_by
  simp only [List.length_drop, storedSize] at *
  omega

end Deflate

end LabelPress
