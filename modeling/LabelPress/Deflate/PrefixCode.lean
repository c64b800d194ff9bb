import LabelPress.Deflate.BitStream

/-!
# Prefix codes

A prefix code gives every symbol a word of bits of its own length, such that no word begins
another one.  The words of one length are consecutive numbers in the order of their symbols, and
longer words follow shorter ones; the lengths alone therefore determine the code.  A word is read
by keeping count of the words that are shorter.
-/

namespace LabelPress

/-- The words of the symbols, given by their lengths. -/
structure PrefixCode where
  /-- The numbers of words with one bit, two bits and so on. -/
  counts : List Nat
  /-- The symbols in the order of their words. -/
  symbols : Array Nat
  deriving DecidableEq, Repr

namespace PrefixCode

/-- The greatest number of bits of a word. -/
def maxLength : Nat := 15

/-- The symbols whose words have `length` bits. -/
def symbolsOfLength (lengths : List Nat) (length : Nat) : List Nat :=
  lengths.zipIdx.filterMap fun (entry, symbol) => if entry = length then some symbol else none

/-- The code in which the word of symbol `i` has `lengths[i]` bits; none has no word. -/
def ofLengths (lengths : List Nat) : PrefixCode where
  counts := (List.range maxLength).map fun below => (symbolsOfLength lengths (below + 1)).length
  symbols :=
    ((List.range maxLength).flatMap fun below => symbolsOfLength lengths (below + 1)).toArray

/-- The part of all words of `maxLength` bits that begin with a word of the code. -/
def usedSpace (code : PrefixCode) : Nat :=
  code.counts.foldl (fun used count => 2 * used + count) 0

/-- Every sequence of bits begins with a word. -/
def Complete (code : PrefixCode) : Prop :=
  code.usedSpace = Nat.pow 2 maxLength

instance (code : PrefixCode) : Decidable code.Complete :=
  inferInstanceAs (Decidable (_ = _))

/-- The code has no word, or one word of a single bit. -/
def Trivial (code : PrefixCode) : Prop :=
  code.symbols.size = 0 ∨ code.symbols.size = 1 ∧ code.counts.headD 0 = 1

instance (code : PrefixCode) : Decidable code.Trivial :=
  inferInstanceAs (Decidable (_ ∨ _))

/--
Reads on in a word of which `word` is known.  Shorter words of the code stand for the first
`offset` symbols, and `first` is the word that follows the last of them, cut to the known bits.
-/
def symbolFrom? (symbols : Array Nat) (offset first word : Nat) :
    (counts : List Nat) → BitStream → Option (Nat × BitStream)
  | [], _ => none
  | count :: counts, stream =>
    match stream.bit? with
    | none => none
    | some (bit, rest) =>
      let word := 2 * word + bit.toNat
      if word < first + count then (symbols[offset + (word - first)]?).map (·, rest)
      else symbolFrom? symbols (offset + count) (2 * (first + count)) word counts rest

/-- The symbol of the word with which the stream begins. -/
def symbol? (code : PrefixCode) (stream : BitStream) : Option (Nat × BitStream) :=
  symbolFrom? code.symbols 0 0 0 code.counts stream

theorem size_of_symbolFrom? {symbols : Array Nat} {offset first word symbol : Nat}
    {counts : List Nat} {stream rest : BitStream}
    (read : symbolFrom? symbols offset first word counts stream = some (symbol, rest)) :
    rest.size < stream.size := by
  induction counts generalizing offset first word stream with
  | nil => simp [symbolFrom?] at read
  | cons count counts ih =>
    unfold symbolFrom? at read
    split at read
    · simp at read
    · rename_i bit behind next
      have shorter := BitStream.size_of_bit? next
      dsimp only at read
      split at read
      · simp only [Option.map_eq_some_iff, Prod.mk.injEq] at read
        obtain ⟨_, -, -, rfl⟩ := read
        omega
      · have := ih read
        omega

/-- Reading a symbol takes at least one bit. -/
theorem size_of_symbol? {code : PrefixCode} {symbol : Nat} {stream rest : BitStream}
    (read : code.symbol? stream = some (symbol, rest)) : rest.size < stream.size :=
  size_of_symbolFrom? read

end PrefixCode

end LabelPress
