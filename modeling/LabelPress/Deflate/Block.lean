import LabelPress.Deflate.PrefixCode

/-!
# Blocks

Compressed data is a sequence of blocks.  The head of a block says whether it is the last one and
what it holds: bytes as they are, whose number follows, or words of two prefix codes.  The codes are
fixed, or the lengths of their words follow, as words of a third code.
-/

namespace LabelPress

namespace Deflate

/-- Why compressed data cannot be read on. -/
inductive Fault where
  /-- It ends too early. -/
  | cutOff
  /-- It cannot go on as it does. -/
  | damaged
  deriving DecidableEq, Repr

/-- The two codes of a block. -/
structure Codes where
  /-- The code of bytes, of lengths and of the end. -/
  contents : PrefixCode
  /-- The code of distances. -/
  distances : PrefixCode
  deriving DecidableEq, Repr

/-- What a block holds behind its head. -/
inductive Body where
  /-- So many bytes as they are. -/
  | stored (length : Nat)
  /-- Words of two codes. -/
  | coded (codes : Codes)
  deriving DecidableEq, Repr

/-- A block whose head has been read. -/
structure Block where
  /-- No block follows. -/
  last : Bool
  /-- What it holds, or what is left of that. -/
  body : Body
  deriving DecidableEq, Repr

/-- The symbol at which a block ends. -/
def endSymbol : Nat := 256

/-- The number of symbols that stand for something; the fixed code has words for more. -/
def symbolCount : Nat := 286

/-- Reads the head of a block of bytes as they are: their number, and its complement. -/
def storedHead (stream : BitStream) : Except Fault (Body × BitStream) :=
  match stream.aligned with
  | low :: high :: lowComplement :: highComplement :: bytes =>
    let length := low.toNat + 256 * high.toNat
    let complement := lowComplement.toNat + 256 * highComplement.toNat
    if length + complement = 0xFFFF then .ok (.stored length, .ofBytes bytes)
    else .error .damaged
  | _ => .error .cutOff

theorem size_of_storedHead {body : Body} {stream rest : BitStream}
    (read : storedHead stream = .ok (body, rest)) : rest.size ≤ stream.size := by
  unfold storedHead at read
  split at read
  · rename_i found
    simp only [BitStream.aligned] at found
    dsimp only at read
    split at read
    · simp only [Except.ok.injEq, Prod.mk.injEq] at read
      obtain ⟨-, rfl⟩ := read
      simp only [BitStream.size, BitStream.ofBytes, found, List.length_cons, List.length_nil]
      omega
    · simp at read
  · simp at read

/-- The fixed codes. -/
def fixedCodes : Codes where
  contents := .ofLengths (List.replicate 144 8 ++ List.replicate 112 9 ++ List.replicate 24 7 ++
    List.replicate 8 8)
  distances := .ofLengths (List.replicate 32 5)

/-- The order in which the lengths of the code of lengths are given. -/
def lengthOrder : List Nat :=
  [16, 17, 18, 0, 8, 7, 9, 6, 10, 5, 11, 4, 12, 3, 13, 2, 14, 1, 15]

/-- Reads `count` numbers of three bits. -/
def shortNumbers? : (count : Nat) → BitStream → Option (List Nat × BitStream)
  | 0, stream => some ([], stream)
  | count + 1, stream =>
    match BitStream.number? 3 stream with
    | none => none
    | some (number, rest) =>
      (shortNumbers? count rest).map fun (numbers, rest) => (number :: numbers, rest)

theorem size_of_shortNumbers? {count : Nat} {numbers : List Nat} {stream rest : BitStream}
    (read : shortNumbers? count stream = some (numbers, rest)) : rest.size ≤ stream.size := by
  induction count generalizing numbers stream with
  | zero =>
    simp only [shortNumbers?, Option.some.injEq, Prod.mk.injEq] at read
    simp [read.2]
  | succ count ih =>
    unfold shortNumbers? at read
    split at read
    · simp at read
    · rename_i first
      simp only [Option.map_eq_some_iff, Prod.mk.injEq, Prod.exists] at read
      obtain ⟨_, _, others, -, rfl⟩ := read
      have := BitStream.size_of_number? first
      have := ih others
      omega

/-- The least length and the number of bits that add to it, of a run that a symbol announces. -/
def runTable (symbol : Nat) : Nat × Nat :=
  if symbol = 16 then (3, 2) else if symbol = 17 then (3, 3) else (11, 7)

/-- The lengths that a word of the code of lengths adds to those before, in reverse order. -/
def lengthRun (symbol : Nat) (reversed : List Nat) (stream : BitStream) :
    Except Fault (List Nat × BitStream) :=
  if symbol < 16 then .ok ([symbol], stream)
  else
    match BitStream.number? (runTable symbol).2 stream with
    | none => .error .cutOff
    | some (more, rest) =>
      let count := (runTable symbol).1 + more
      if symbol = 16 then
        match reversed with
        | [] => .error .damaged
        | last :: _ => .ok (List.replicate count last, rest)
      else .ok (List.replicate count 0, rest)

theorem size_of_lengthRun {symbol : Nat} {reversed run : List Nat} {stream rest : BitStream}
    (read : lengthRun symbol reversed stream = .ok (run, rest)) : rest.size ≤ stream.size := by
  unfold lengthRun at read
  split at read
  · simp only [Except.ok.injEq, Prod.mk.injEq] at read
    simp [read.2]
  · split at read
    · simp at read
    · rename_i number
      have := BitStream.size_of_number? number
      dsimp only at read
      split at read
      · split at read
        · simp at read
        · simp only [Except.ok.injEq, Prod.mk.injEq] at read
          obtain ⟨-, rfl⟩ := read
          omega
      · simp only [Except.ok.injEq, Prod.mk.injEq] at read
        obtain ⟨-, rfl⟩ := read
        omega

/-- The greatest number of bits of a word of the code of lengths. -/
def lengthBits : Nat := 7

/-- Reads `wanted` lengths, put before those known in reverse order. -/
def lengths (code : PrefixCode) (wanted : Nat) (reversed : List Nat) (stream : BitStream) :
    Except Fault (List Nat × BitStream) :=
  if reversed.length = wanted then .ok (reversed.reverse, stream)
  else if wanted < reversed.length then .error .damaged
  else if stream.holds lengthBits then
    match _word : code.symbol? stream with
    | none => .error .cutOff
    | some (symbol, rest) =>
      match _run : lengthRun symbol reversed rest with
      | .error fault => .error fault
      | .ok (run, rest) => lengths code wanted (run ++ reversed) rest
  else .error .cutOff
termination_by stream.size
decreasing_by
  have := PrefixCode.size_of_symbol? _word
  have := size_of_lengthRun _run
  omega

theorem size_of_lengths {code : PrefixCode} {wanted : Nat} {reversed found : List Nat}
    {stream rest : BitStream}
    (read : lengths code wanted reversed stream = .ok (found, rest)) :
    rest.size ≤ stream.size := by
  fun_induction lengths code wanted reversed stream with
  | case1 =>
    simp only [Except.ok.injEq, Prod.mk.injEq] at read
    simp [read.2]
  | case2 => simp at read
  | case3 => simp at read
  | case4 => simp at read
  | case5 reversed stream _ _ _ symbol next word run last found ih =>
    have := PrefixCode.size_of_symbol? word
    have := size_of_lengthRun found
    have := ih read
    omega
  | case6 => simp at read

/-- The code of lengths, if the numbers of bits in `lengthOrder` make one. -/
def lengthCode? (numbers : List Nat) : Option PrefixCode :=
  let entries := lengthOrder.zip numbers
  let code := PrefixCode.ofLengths ((List.range 19).map fun symbol =>
    (entries.lookup symbol).getD 0)
  if code.Complete then some code else none

/-- The codes with given lengths, if they are codes of a block. -/
def codesOfLengths? (contents distances : List Nat) : Option Codes :=
  let codes : Codes := ⟨.ofLengths contents, .ofLengths distances⟩
  if contents.getD endSymbol 0 ≠ 0 ∧ codes.contents.Complete ∧
      (codes.distances.Complete ∨ codes.distances.Trivial) then
    some codes
  else none

/-- The greatest number of distances. -/
def distanceCount : Nat := 30

/-- The codes whose lengths follow, after the numbers of those lengths have been read. -/
def writtenCodes (contents distances count : Nat) (stream : BitStream) :
    Except Fault (Body × BitStream) :=
  if symbolCount < contents ∨ distanceCount < distances then .error .damaged
  else
    match shortNumbers? count stream with
    | none => .error .cutOff
    | some (numbers, rest) =>
      match lengthCode? numbers with
      | none => .error .damaged
      | some code =>
        match lengths code (contents + distances) [] rest with
        | .error fault => .error fault
        | .ok (lengths, rest) =>
          match codesOfLengths? (lengths.take contents) (lengths.drop contents) with
          | none => .error .damaged
          | some codes => .ok (.coded codes, rest)

theorem size_of_writtenCodes {contents distances count : Nat} {stream rest : BitStream}
    {body : Body} (read : writtenCodes contents distances count stream = .ok (body, rest)) :
    rest.size ≤ stream.size := by
  unfold writtenCodes at read
  split at read
  · simp at read
  · split at read
    · simp at read
    · rename_i short
      split at read
      · simp at read
      · split at read
        · simp at read
        · rename_i more
          split at read
          · simp at read
          · simp only [Except.ok.injEq, Prod.mk.injEq] at read
            obtain ⟨-, rfl⟩ := read
            have := size_of_shortNumbers? short
            have := size_of_lengths more
            omega

/-- Reads the head of a block that brings its own codes. -/
def codedHead (stream : BitStream) : Except Fault (Body × BitStream) :=
  match BitStream.number? 5 stream with
  | none => .error .cutOff
  | some (contents, rest) =>
    match BitStream.number? 5 rest with
    | none => .error .cutOff
    | some (distances, rest) =>
      match BitStream.number? 4 rest with
      | none => .error .cutOff
      | some (count, rest) => writtenCodes (contents + 257) (distances + 1) (count + 4) rest

theorem size_of_codedHead {body : Body} {stream rest : BitStream}
    (read : codedHead stream = .ok (body, rest)) : rest.size ≤ stream.size := by
  unfold codedHead at read
  split at read
  · simp at read
  · rename_i first
    split at read
    · simp at read
    · rename_i second
      split at read
      · simp at read
      · rename_i third
        have := BitStream.size_of_number? first
        have := BitStream.size_of_number? second
        have := BitStream.size_of_number? third
        have := size_of_writtenCodes read
        omega

/-- Reads the head of a block of a kind. -/
def bodyOfKind (kind : Nat) (stream : BitStream) : Except Fault (Body × BitStream) :=
  if kind = 0 then storedHead stream
  else if kind = 1 then .ok (.coded fixedCodes, stream)
  else if kind = 2 then codedHead stream
  else .error .damaged

theorem size_of_bodyOfKind {kind : Nat} {body : Body} {stream rest : BitStream}
    (read : bodyOfKind kind stream = .ok (body, rest)) : rest.size ≤ stream.size := by
  unfold bodyOfKind at read
  split at read
  · exact size_of_storedHead read
  · split at read
    · simp only [Except.ok.injEq, Prod.mk.injEq] at read
      simp [read.2]
    · split at read
      · exact size_of_codedHead read
      · simp at read

/-- The number of bits of the shortest block; with fewer a head is not looked at. -/
def leastBits : Nat := 10

/-- Reads the head of a block. -/
def head (stream : BitStream) : Except Fault (Block × BitStream) :=
  if stream.holds leastBits then
    match BitStream.number? 3 stream with
    | none => .error .cutOff
    | some (number, rest) =>
      match bodyOfKind (number / 2) rest with
      | .error fault => .error fault
      | .ok (body, rest) => .ok (⟨number % 2 = 1, body⟩, rest)
  else .error .cutOff

theorem size_of_head {block : Block} {stream rest : BitStream}
    (read : head stream = .ok (block, rest)) : rest.size < stream.size := by
  unfold head at read
  split at read
  · split at read
    · simp at read
    · rename_i first
      split at read
      · simp at read
      · rename_i second
        simp only [Except.ok.injEq, Prod.mk.injEq] at read
        obtain ⟨-, rfl⟩ := read
        have := BitStream.size_of_number? first
        have := size_of_bodyOfKind second
        omega
  · simp at read

end Deflate

end LabelPress
