import LabelPress.Proofs.Markup.HexEscape

/-!
# Where escaped data break

Escaped data are read from left to right, and an indicator takes the two characters behind it,
whatever they are.  Data break at the first indicator that has no two digits there (`BreaksAt`); all
other data spell bytes (`spells_or_breaksAt`), and none do both.

Places are counted in bytes, so that data behind others break as many bytes later as these have.
The main statement (`decode_piecewise`) says this of reading, together with the text: behind data
whose bytes are a text, the bytes of other data are read as they are on their own.
-/

namespace LabelPress.Markup.HexEscape

open LabelPress.Text

/-! ## Two digits behind an indicator -/

/-- The hexadecimal digits of either case. -/
def digitCharacters : List Char :=
  ['0', '1', '2', '3', '4', '5', '6', '7', '8', '9', 'a', 'b', 'c', 'd', 'e', 'f', 'A', 'B', 'C',
    'D', 'E', 'F']

/-- A text opens with two hexadecimal digits. -/
def OpensWithDigits (text : List Char) : Prop :=
  ∃ high low rest,
    text = high :: low :: rest ∧ high ∈ digitCharacters ∧ low ∈ digitCharacters

theorem toNat_lt_of_hexDigit? {character : Char} {value : Nat}
    (digit : hexDigit? character = some value) :
    character.toNat < 128 := by
  have upTo : ∀ last : Char, last.toNat < 128 → character ≤ last → character.toNat < 128 :=
    fun last bound below => Nat.lt_of_le_of_lt below bound
  rw [hexDigit?] at digit
  split at digit
  · next decimal => exact upTo '9' (by decide) decimal.2
  · split at digit
    · next lower => exact upTo 'f' (by decide) lower.2
    · split at digit
      · next upper => exact upTo 'F' (by decide) upper.2
      · cases digit

theorem mem_digitCharacters_of_ascii : ∀ code < 128,
    (hexDigit? (Char.ofNat code)).isSome = decide (Char.ofNat code ∈ digitCharacters) := by
  decide

/-- The digits are the characters that have a value. -/
theorem isSome_hexDigit?_iff (character : Char) :
    (hexDigit? character).isSome = true ↔ character ∈ digitCharacters := by
  constructor
  · intro digit
    obtain ⟨value, found⟩ := Option.isSome_iff_exists.mp digit
    have member := mem_digitCharacters_of_ascii _ (toNat_lt_of_hexDigit? found)
    rw [Char.ofNat_toNat, digit] at member
    exact of_decide_eq_true member.symm
  · intro member
    have digits : digitCharacters.all (fun digit => (hexDigit? digit).isSome) = true := by
      decide
    exact List.all_eq_true.mp digits character member

/-- Two characters stand for a byte exactly if both are digits. -/
theorem exists_byte?_iff (high low : Char) :
    (∃ byte, byte? high low = some byte) ↔
      high ∈ digitCharacters ∧ low ∈ digitCharacters := by
  rw [← isSome_hexDigit?_iff, ← isSome_hexDigit?_iff, byte?]
  cases hexDigit? high <;> cases hexDigit? low <;> simp

/-! ## Breaking data -/

/--
Reading from left to right meets an indicator that is not followed by two digits, and `position`
bytes stand before the first such indicator.
-/
inductive BreaksAt (indicator : Char) : List Char → (position : Nat) → Prop where
  | here {data : List Char}
      (undigited : ¬ OpensWithDigits data) :
      BreaksAt indicator (indicator :: data) 0
  | plain {character : Char} {data : List Char} {position : Nat}
      (notIndicator : character ≠ indicator)
      (later : BreaksAt indicator data position) :
      BreaksAt indicator (character :: data) (character.utf8Size + position)
  | escape {high low : Char} {data : List Char} {position : Nat}
      (highDigit : high ∈ digitCharacters)
      (lowDigit : low ∈ digitCharacters)
      (later : BreaksAt indicator data position) :
      BreaksAt indicator (indicator :: high :: low :: data)
        (indicator.utf8Size + high.utf8Size + low.utf8Size + position)

/-- Data spell bytes or break. -/
theorem spells_or_breaksAt (indicator : Char) (data : List Char) :
    (∃ bytes, Spells indicator data bytes) ∨ ∃ position, BreaksAt indicator data position := by
  -- An escape is three characters long, so that the length and not the list decreases by one.
  induction length : data.length using Nat.strongRecOn generalizing data with
  | ind size ih =>
      cases data with
      | nil =>
          exact Or.inl ⟨[], .nil⟩
      | cons character data =>
          by_cases same : character = indicator
          · subst same
            by_cases digited : OpensWithDigits data
            · obtain ⟨high, low, rest, rfl, highDigit, lowDigit⟩ := digited
              obtain ⟨byte, digits⟩ := (exists_byte?_iff high low).mpr ⟨highDigit, lowDigit⟩
              rcases ih rest.length (by simp at length; omega) rest rfl with
                ⟨bytes, spells⟩ | ⟨position, breaks⟩
              · exact Or.inl ⟨_, .escape digits spells⟩
              · exact Or.inr ⟨_, .escape highDigit lowDigit breaks⟩
            · exact Or.inr ⟨0, .here digited⟩
          · rcases ih data.length (by simp at length; omega) data rfl with
              ⟨bytes, spells⟩ | ⟨position, breaks⟩
            · exact Or.inl ⟨_, .plain same spells⟩
            · exact Or.inr ⟨_, .plain same breaks⟩

theorem bytesFrom_cons_undigited {indicator : Char} (found : Array UInt8) (position : Nat)
    {data : List Char} (undigited : ¬ OpensWithDigits data) :
    bytesFrom indicator found position (indicator :: data) = .error (.hexEscape position) := by
  rw [bytesFrom.eq_def]
  dsimp only
  rw [if_pos rfl]
  split
  · next high low rest =>
      split
      · next byte digits =>
          obtain ⟨highDigit, lowDigit⟩ := (exists_byte?_iff high low).mp ⟨byte, digits⟩
          exact absurd ⟨high, low, rest, rfl, highDigit, lowDigit⟩ undigited
      · rfl
  · rfl

/-- Data that break are an error, as far from their beginning as they break. -/
theorem BreaksAt.bytesFrom_eq {indicator : Char} {data : List Char} {offset : Nat}
    (breaks : BreaksAt indicator data offset)
    (found : Array UInt8) (position : Nat) :
    bytesFrom indicator found position data = .error (.hexEscape (position + offset)) := by
  induction breaks generalizing found position with
  | here undigited =>
      exact bytesFrom_cons_undigited found position undigited
  | plain notIndicator later ih =>
      rw [bytesFrom_cons_plain _ _ _ notIndicator, ih, Nat.add_assoc]
  | @escape high low data offset highDigit lowDigit later ih =>
      obtain ⟨byte, digits⟩ := (exists_byte?_iff high low).mpr ⟨highDigit, lowDigit⟩
      rw [bytesFrom_cons_escape _ _ _ _ digits, ih]
      simp only [Nat.add_assoc]

/-! ## Reading data behind others -/

/-- Data that spell bytes stand for the text that the bytes hold. -/
theorem Spells.decode_eq {indicator : Char} {data : List Char} {bytes : List UInt8}
    (spells : Spells indicator data bytes) :
    decode indicator data = .ok (Text.decode bytes) := by
  rw [decode, bytes_eq_ok_iff.mpr spells]
  rfl

theorem BreaksAt.decode_eq {indicator : Char} {data : List Char} {position : Nat}
    (breaks : BreaksAt indicator data position) :
    decode indicator data = .error (.hexEscape position) := by
  rw [decode, bytes, breaks.bytesFrom_eq, Nat.zero_add]
  rfl

/-- Behind data that spell bytes, other data break as many bytes later as these have. -/
theorem Spells.decode_append_of_breaksAt {indicator : Char} {front behind : List Char}
    {bytes : List UInt8} {position : Nat}
    (spells : Spells indicator front bytes)
    (breaks : BreaksAt indicator behind position) :
    decode indicator (front ++ behind) =
      .error (.hexEscape (position + (encode front).length)) := by
  rw [decode, HexEscape.bytes, spells.bytesFrom_append, breaks.bytesFrom_eq, Nat.zero_add,
    Nat.add_comm]
  rfl

/-- Behind data that spell the bytes of a text, other data are read as they are on their own. -/
theorem Spells.decode_append_of_spells {indicator : Char} {front behind text : List Char}
    {bytes : List UInt8}
    (spells : Spells indicator front (encode text))
    (others : Spells indicator behind bytes) :
    decode indicator (front ++ behind) = .ok (text ++ Text.decode bytes) := by
  rw [(spells.append others).decode_eq, decode_encode_append]

/-- Reading fails where the data break, and nowhere else. -/
theorem decode_eq_error_iff {indicator : Char} {data : List Char} {fault : MarkupError} :
    decode indicator data = .error fault ↔
      ∃ position, BreaksAt indicator data position ∧ fault = .hexEscape position := by
  constructor
  · intro failed
    rcases spells_or_breaksAt indicator data with ⟨bytes, spells⟩ | ⟨position, breaks⟩
    · rw [spells.decode_eq] at failed
      cases failed
    · rw [breaks.decode_eq] at failed
      exact ⟨position, breaks, (Except.error.inj failed).symm⟩
  · rintro ⟨position, breaks, rfl⟩
    exact breaks.decode_eq

/--
Escaped data are read piece by piece.  If data are read, and their bytes are those of a text, then
other data behind them are read exactly if they are read on their own, and their text stands behind
that of the others; if they fail on their own, they fail behind the others as many bytes later as
these have.  Data fail exactly if reading from left to right meets an indicator that is not followed
by two digits, and at the first such indicator.
-/
theorem decode_piecewise (indicator : Char) :
    (∀ front behind text, bytes indicator front = .ok (encode text) →
      decode indicator front = .ok text ∧
        (∀ whole, decode indicator (front ++ behind) = .ok whole ↔
          ∃ rest, decode indicator behind = .ok rest ∧ whole = text ++ rest) ∧
        (∀ fault, decode indicator (front ++ behind) = .error fault ↔
          ∃ position, decode indicator behind = .error (.hexEscape position) ∧
            fault = .hexEscape (position + (encode front).length))) ∧
      (∀ data fault, decode indicator data = .error fault ↔
        ∃ position, BreaksAt indicator data position ∧ fault = .hexEscape position) := by
  refine ⟨?_, fun data fault => decode_eq_error_iff⟩
  intro front behind text read
  have spells := bytes_eq_ok_iff.mp read
  refine ⟨decode_of_spells_encode spells, ?_⟩
  rcases spells_or_breaksAt indicator behind with ⟨others, otherSpells⟩ | ⟨position, breaks⟩
  · rw [spells.decode_append_of_spells otherSpells, otherSpells.decode_eq]
    constructor
    · intro whole
      constructor
      · intro same
        exact ⟨_, rfl, (Except.ok.inj same).symm⟩
      · rintro ⟨rest, same, rfl⟩
        rw [Except.ok.inj same]
    · intro fault
      simp only [reduceCtorEq, false_and, exists_false]
  · rw [spells.decode_append_of_breaksAt breaks, breaks.decode_eq]
    constructor
    · intro whole
      simp only [reduceCtorEq, false_and, exists_false]
    · intro fault
      constructor
      · intro same
        exact ⟨position, rfl, (Except.error.inj same).symm⟩
      · rintro ⟨other, same, rfl⟩
        cases same
        rfl

/-- The indicator has two bytes; the data in front spell a character in two escapes. -/
theorem decode_piecewise_of_broken_end :
    let front := ['a', '§', 'C', '3', '§', 'a', '9']
    let behind := ['b', '§', '4']
    bytes '§' front = .ok (encode ['a', 'é']) ∧
      decode '§' (front ++ behind) = .error (.hexEscape 10) ∧
        BreaksAt '§' (front ++ behind) 10 := by
  intro front behind
  have spells : Spells '§' front (encode ['a', 'é']) :=
    .plain (by decide) (.escape (by decide) (.escape (by decide) .nil))
  have undigited : ¬ OpensWithDigits ['4'] := by
    rintro ⟨high, low, rest, same, -⟩
    cases same
  have broken : BreaksAt '§' behind 1 := .plain (by decide) (.here undigited)
  have size : 1 + (encode front).length = 10 := by
    decide
  have read := bytes_eq_ok_iff.mpr spells
  obtain ⟨pieces, breaking⟩ := decode_piecewise '§'
  have failed := ((pieces front behind ['a', 'é'] read).2.2 (.hexEscape 10)).mpr
    ⟨1, broken.decode_eq, by rw [size]⟩
  obtain ⟨position, breaks, same⟩ := (breaking _ _).mp failed
  cases same
  exact ⟨read, failed, breaks⟩

end LabelPress.Markup.HexEscape
