import LabelPress.Proofs.Json.Numeral
import LabelPress.Proofs.Json.StringLiteral

/-!
# JSON texts are read exactly as they are written

A text is read as a value exactly if it is spaced from lexemes of this value, with at most 127 lists
and objects inside one another (`parse_encode_eq_ok_iff`).  A reader that takes values exactly as
they are written (`ReadBy`) also takes lists, members and objects of such values so, and the depth
is the induction.
-/

namespace LabelPress.Json

/-! ## Readers of written values -/

/-- Whether a value or a name may begin with a character. -/
def OpensItem (first : Char) : Prop :=
  isBlankCharacter first = false ∧ first ≠ ']' ∧ first ≠ '\x7d'

/-- A reader takes values from the bytes behind blanks exactly as they are written. -/
structure ReadBy {α : Type} (item : α → List Lexeme → Prop) (read : Reader α) : Prop where
  opens : ∀ {value : α} {lexemes : List Lexeme}, item value lexemes →
    ∃ first others later, lexemes = (first :: others) :: later ∧ OpensItem first
  sound : ∀ {text : List Char} {value : α} {rest : List UInt8},
    Reads read (skipBlanks (Text.encode text)) value rest →
      ∃ lexemes behind, item value lexemes ∧ Leads lexemes text behind ∧
        rest = Text.encode behind
  complete : ∀ {value : α} {lexemes : List Lexeme} {text behind : List Char},
    item value lexemes → Leads lexemes text behind → Stops behind →
      Reads read (skipBlanks (Text.encode text)) value (Text.encode behind)

/-! ## Items -/

/-- A list or an object ends with a mark. -/
structure EndsWith (enclosure : Enclosure) (mark : Char) : Prop where
  byte : enclosure.closing = byteOf mark
  known : mark = ']' ∨ mark = '\x7d'

namespace EndsWith

variable {enclosure : Enclosure} {mark : Char}

theorem ascii (ends : EndsWith enclosure mark) : mark.toNat < 128 := by
  rcases ends.known with rfl | rfl <;> decide

theorem notBlank (ends : EndsWith enclosure mark) : isBlankCharacter mark = false := by
  rcases ends.known with rfl | rfl <;> decide

theorem notNumber (ends : EndsWith enclosure mark) : continuesNumber mark = false := by
  rcases ends.known with rfl | rfl <;> decide

theorem notComma (ends : EndsWith enclosure mark) : enclosure.closing ≠ byteOf ',' := by
  rw [ends.byte]
  rcases ends.known with rfl | rfl <;> decide

theorem skipBlanks_iff (ends : EndsWith enclosure mark) {text : List Char} {rest : List UInt8} :
    skipBlanks (Text.encode text) = enclosure.closing :: rest ↔
      ∃ behind, Leads [[mark]] text behind ∧ rest = Text.encode behind := by
  rw [ends.byte]
  exact skipBlanks_encode_eq_cons_iff ends.ascii ends.notBlank

end EndsWith

theorem not_continuesNumber_of_blank {character : Char}
    (blank : isBlankCharacter character = true) : continuesNumber character = false := by
  simp only [isBlankCharacter, decide_eq_true_eq] at blank
  rcases blank with rfl | rfl | rfl | rfl <;> decide

theorem stops_append {blanks text : List Char}
    (blank : ∀ character ∈ blanks, isBlankCharacter character = true) (stops : Stops text) :
    Stops (blanks ++ text) := by
  cases blanks with
  | nil =>
      exact stops
  | cons first blanks =>
      rintro _ ⟨rfl⟩
      exact not_continuesNumber_of_blank (blank _ List.mem_cons_self)

theorem stops_of_leads {mark : Char} (notNumber : continuesNumber mark = false)
    {lexemes : List Lexeme} {text behind : List Char}
    (leads : Leads ([mark] :: lexemes) text behind) : Stops text := by
  cases leads with
  | cons blank later =>
      refine stops_append blank ?_
      rintro _ ⟨rfl⟩
      exact notNumber

section Items

variable {α : Type} {item : α → List Lexeme → Prop} {read : Reader α} {enclosure : Enclosure}
  {mark : Char}

/-- Behind an item stands a comma or the end. -/
theorem Further.stops (ends : EndsWith enclosure mark) {items : List α} {lexemes : List Lexeme}
    (further : Further item items lexemes) {text behind : List Char}
    (leads : Leads (lexemes ++ [[mark]]) text behind) : Stops text := by
  cases further with
  | nil => exact stops_of_leads ends.notNumber leads
  | cons => exact stops_of_leads (by decide) leads

/-- Where an item stands no list and no object ends. -/
theorem ReadBy.isOpen (inner : ReadBy item read) (ends : EndsWith enclosure mark) {value : α}
    {lexemes : List Lexeme} (written : item value lexemes) {text behind : List Char}
    (leads : Leads lexemes text behind) :
    IsOpen enclosure (skipBlanks (Text.encode text)) := by
  obtain ⟨first, others, later, rfl, notBlank, notBracket, notBrace⟩ := inner.opens written
  obtain ⟨more, opened, -⟩ := (leads_cons_iff notBlank).mp leads
  rw [skipBlanks_encode, opened, List.cons_append]
  have notMark : ∀ character ∈ (first :: (others ++ more)).head?, character ≠ mark := by
    rintro _ ⟨rfl⟩
    rcases ends.known with rfl | rfl
    · exact notBracket
    · exact notBrace
  have notClosing := ne_byteOf_of_mem_head? ends.ascii notMark
  cases bytes : Text.encode (first :: (others ++ more)) with
  | nil =>
      rw [Text.encode_cons] at bytes
      exact absurd (List.append_eq_nil_iff.mp bytes).1 String.utf8EncodeChar_ne_nil
  | cons byte rest =>
      rw [bytes] at notClosing
      exact ⟨byte, rest, rfl, by rw [ends.byte]; exact notClosing byte rfl⟩

/-- Further items are read behind a comma each, up to the end. -/
theorem Further.reads (inner : ReadBy item read) (ends : EndsWith enclosure mark)
    {items : List α} {lexemes : List Lexeme} (further : Further item items lexemes)
    {reversed : List α} (nonempty : reversed ≠ []) {text behind : List Char}
    (leads : Leads (lexemes ++ [[mark]]) text behind) :
    Reads (readItems enclosure read reversed) (Text.encode text) (reversed.reverse ++ items)
      (Text.encode behind) := by
  induction further generalizing reversed text with
  | nil =>
      refine reads_readItems_iff.mpr (.inl ⟨?_, List.append_nil _⟩)
      exact ends.skipBlanks_iff.mpr ⟨behind, leads, rfl⟩
  | @cons first items lexemes more written later ih =>
      rw [List.cons_append, ← List.singleton_append, leads_append_iff] at leads
      obtain ⟨start, comma, leads⟩ := leads
      rw [List.append_assoc, leads_append_iff] at leads
      obtain ⟨middle, leadsItem, leadsMore⟩ := leads
      have continued : ∃ notLonger, continuation enclosure reversed.isEmpty (Text.encode text) =
          .ok (.item (skipBlanks (Text.encode start)) notLonger) := by
        rw [List.isEmpty_eq_false_iff.mpr nonempty]
        exact (continuation_eq_further_iff ends.notComma).mpr ⟨_,
          (skipBlanks_encode_eq_cons_iff (by decide) (by decide)).mpr ⟨start, comma, rfl⟩, rfl,
          inner.isOpen ends written leadsItem⟩
      have readItem := inner.complete written leadsItem (later.stops ends leadsMore)
      have readMore := ih (List.cons_ne_nil first reversed) leadsMore
      rw [List.reverse_cons, List.append_assoc, List.singleton_append] at readMore
      exact reads_readItems_iff.mpr (.inr ⟨_, first, _, continued, readItem, readMore⟩)

theorem Separated.reads (inner : ReadBy item read) (ends : EndsWith enclosure mark)
    {items : List α} {lexemes : List Lexeme} (separated : Separated item items lexemes)
    {text behind : List Char} (leads : Leads (lexemes ++ [[mark]]) text behind) :
    Reads (readItems enclosure read []) (Text.encode text) items (Text.encode behind) := by
  cases separated with
  | nil =>
      refine reads_readItems_iff.mpr (.inl ⟨?_, rfl⟩)
      exact ends.skipBlanks_iff.mpr ⟨behind, leads, rfl⟩
  | @cons first items lexemes more written later =>
      rw [List.append_assoc, leads_append_iff] at leads
      obtain ⟨middle, leadsItem, leadsMore⟩ := leads
      have continued : ∃ notLonger, continuation enclosure true (Text.encode text) =
          .ok (.item (skipBlanks (Text.encode text)) notLonger) :=
        continuation_eq_first_iff.mpr ⟨rfl, inner.isOpen ends written leadsItem⟩
      have readItem := inner.complete written leadsItem (later.stops ends leadsMore)
      have readMore := later.reads inner ends (List.cons_ne_nil first []) leadsMore
      exact reads_readItems_iff.mpr (.inr ⟨_, first, _, continued, readItem, readMore⟩)

/-- The induction is on the bytes that are left, with the items so far generalised. -/
theorem exists_further (inner : ReadBy item read) (ends : EndsWith enclosure mark)
    {reversed items : List α} (nonempty : reversed ≠ []) {text : List Char} {rest : List UInt8}
    (reads : Reads (readItems enclosure read reversed) (Text.encode text) items rest) :
    ∃ more lexemes behind, Further item more lexemes ∧ items = reversed.reverse ++ more ∧
      Leads (lexemes ++ [[mark]]) text behind ∧ rest = Text.encode behind := by
  rcases reads_readItems_iff.mp reads with
    ⟨closed, rfl⟩ | ⟨start, first, middle, continued, readItem, readMore⟩
  · obtain ⟨behind, leads, rfl⟩ := ends.skipBlanks_iff.mp closed
    exact ⟨[], [], behind, .nil, (List.append_nil _).symm, leads, rfl⟩
  · rw [List.isEmpty_eq_false_iff.mpr nonempty] at continued
    obtain ⟨others, comma, rfl, -⟩ := (continuation_eq_further_iff ends.notComma).mp continued
    have commaShorter : others.length < (Text.encode text).length := by
      have bound := length_skipBlanks_le (Text.encode text)
      rw [comma] at bound
      exact bound
    obtain ⟨start, leadsComma, rfl⟩ :=
      (skipBlanks_encode_eq_cons_iff (by decide) (by decide)).mp comma
    have itemShorter := readItem.shorter
    have notLonger := length_skipBlanks_le (Text.encode start)
    obtain ⟨lexemes, text, written, leadsItem, rfl⟩ := inner.sound readItem
    obtain ⟨more, others, behind, further, rfl, leadsMore, rfl⟩ :=
      exists_further inner ends (List.cons_ne_nil first reversed) readMore
    refine ⟨first :: more, [','] :: (lexemes ++ others), behind, .cons written further, ?_, ?_, rfl⟩
    · rw [List.reverse_cons, List.append_assoc, List.singleton_append]
    · rw [List.cons_append, ← List.singleton_append, leads_append_iff]
      refine ⟨start, leadsComma, ?_⟩
      rw [List.append_assoc, leads_append_iff]
      exact ⟨text, leadsItem, leadsMore⟩
termination_by (Text.encode text).length

theorem exists_separated (inner : ReadBy item read) (ends : EndsWith enclosure mark)
    {items : List α} {text : List Char} {rest : List UInt8}
    (reads : Reads (readItems enclosure read []) (Text.encode text) items rest) :
    ∃ lexemes behind, Separated item items lexemes ∧ Leads (lexemes ++ [[mark]]) text behind ∧
      rest = Text.encode behind := by
  rcases reads_readItems_iff.mp reads with
    ⟨closed, rfl⟩ | ⟨start, first, middle, continued, readItem, readMore⟩
  · obtain ⟨behind, leads, rfl⟩ := ends.skipBlanks_iff.mp closed
    exact ⟨[], behind, .nil, leads, rfl⟩
  · obtain ⟨rfl, -⟩ := continuation_eq_first_iff.mp continued
    obtain ⟨lexemes, text, written, leadsItem, rfl⟩ := inner.sound readItem
    obtain ⟨more, others, behind, further, rfl, leadsMore, rfl⟩ :=
      exists_further inner ends (List.cons_ne_nil first []) readMore
    refine ⟨lexemes ++ others, behind, .cons written further, ?_, rfl⟩
    rw [List.append_assoc, leads_append_iff]
    exact ⟨text, leadsItem, leadsMore⟩

end Items

/-! ## Members -/

theorem readMember_iff {read : Reader Value} {bytes rest : List UInt8} {name : String}
    {value : Value} :
    Reads (readMember read) bytes (name, value) rest ↔
      ∃ behind behindName behindColon, bytes = quoteMark :: behind ∧
        Reads readString behind name behindName ∧ Reads readColon behindName () behindColon ∧
        Reads read (skipBlanks behindColon) value rest := by
  constructor
  · rintro ⟨_, result⟩
    unfold readMember at result
    split at result
    · cases result
    · rename_i first behind _
      split at result
      · cases result
      · rename_i mark
        split at result
        · cases result
        · rename_i foundName readName
          split at result
          · cases result
          · rename_i colon readColon
            split at result
            · cases result
            · rename_i foundValue readValue
              cases result
              refine ⟨behind, foundName.rest, colon.rest, by rw [Decidable.not_not.mp mark],
                .of_eq readName, .of_eq readColon, ?_⟩
              exact reads_behindBlanks_iff.mp (.of_eq readValue)
  · rintro ⟨behind, behindName, behindColon, rfl, ⟨shorterName, readName⟩,
      ⟨shorterColon, readColon⟩, readsValue⟩
    obtain ⟨shorterValue, readValue⟩ := reads_behindBlanks_iff.mpr readsValue
    refine ⟨Nat.lt_succ_of_lt (Nat.lt_trans shorterValue (Nat.lt_trans shorterColon shorterName)),
      ?_⟩
    simp only [readMember, ne_eq, not_true_eq_false, if_false, readName, readColon, readValue]
    rfl

/-- A string between its marks leads a text exactly if its literal and the closing mark stand
behind the opening one. -/
theorem leads_stringText {text : String} {written : List Char}
    (literal : LiteralText text.toList written) {lexemes : List Lexeme} {source behind : List Char}
    (later : Leads lexemes source behind) {whole : List Char}
    (opened : Leads [['"']] whole (written ++ '"' :: source)) :
    ∃ lexeme, StringText text lexeme ∧ Leads (lexeme :: lexemes) whole behind := by
  refine ⟨_, .marks literal, ?_⟩
  obtain ⟨more, opened, leads⟩ := (leads_cons_iff (by decide)).mp opened
  cases leads
  refine (leads_cons_iff (by decide)).mpr ⟨source, ?_, later⟩
  rw [opened]
  simp

theorem memberText_readBy {inner : Value → List Lexeme → Prop} {read : Reader Value}
    (readBy : ReadBy inner read) : ReadBy (MemberText inner) (readMember read) where
  opens := by
    intro value lexemes written
    cases written with
    | colon nameWritten =>
        cases nameWritten
        exact ⟨'"', _, _, rfl, by decide, by decide, by decide⟩
  sound := by
    rintro text ⟨name, value⟩ rest reads
    obtain ⟨others, behindName, behindColon, bytes, readsName, readsColon, readsValue⟩ :=
      readMember_iff.mp reads
    obtain ⟨start, mark, rfl⟩ :=
      (skipBlanks_encode_eq_cons_iff (show '"'.toNat < 128 by decide) (by decide)).mp bytes
    obtain ⟨written, start, literal, rfl, rfl⟩ := reads_readString_iff.mp readsName
    obtain ⟨start, colon, rfl⟩ := reads_readColon_iff.mp readsColon
    obtain ⟨lexemes, behind, valueWritten, leads, rfl⟩ := readBy.sound readsValue
    have later : Leads ([':'] :: lexemes) _ behind :=
      leads_append_iff.mpr ⟨start, colon, leads⟩
    obtain ⟨lexeme, nameWritten, leads⟩ := leads_stringText literal later mark
    exact ⟨_, behind, .colon nameWritten valueWritten, leads, rfl⟩
  complete := by
    rintro ⟨name, value⟩ lexemes text behind written leads stops
    cases written with
    | colon nameWritten valueWritten =>
        cases nameWritten with
        | @marks written literal =>
            obtain ⟨more, opened, leads⟩ := (leads_cons_iff (by decide)).mp leads
            rw [← List.singleton_append, leads_append_iff] at leads
            obtain ⟨start, colon, leadsValue⟩ := leads
            refine readMember_iff.mpr ⟨Text.encode (written ++ '"' :: more), _, Text.encode start,
              ?_, reads_readString_iff.mpr ⟨written, more, literal, rfl, rfl⟩,
              reads_readColon_iff.mpr ⟨start, colon, rfl⟩,
              readBy.complete valueWritten leadsValue stops⟩
            rw [skipBlanks_encode, opened, List.cons_append, List.append_assoc,
              encode_byteOf_cons '"' (by decide)]
            rfl

/-! ## Values of one lexeme -/

/-- Reads a value that is neither a list nor an object. -/
def readLexeme : Reader Value := fun bytes =>
  match bytes with
  | [] => .error ⟨.unfinishedValue, []⟩
  | first :: rest => readPlain first rest

theorem reads_readLexeme_cons_iff {first : UInt8} {bytes rest : List UInt8} {value : Value} :
    Reads readLexeme (first :: bytes) value rest ↔
      ∃ shorter, readPlain first bytes = .ok ⟨value, rest, shorter⟩ :=
  Iff.rfl

/-- The word behind its first letter. -/
theorem reads_word_iff {word value : Value} {mark : Char} (ascii : mark.toNat < 128)
    {letters : String} (lettersAscii : ∀ character ∈ letters.toList, character.toNat < 128)
    (plain : ∀ rest, readPlain (byteOf mark) rest = readWord word letters (byteOf mark) rest)
    {text : List Char} {rest : List UInt8} :
    Reads readLexeme (Text.encode (mark :: text)) value rest ↔
      value = word ∧ ∃ behind, text = letters.toList ++ behind ∧ rest = Text.encode behind := by
  rw [encode_byteOf_cons mark ascii, reads_readLexeme_cons_iff, plain]
  exact reads_readWord_iff lettersAscii

theorem reads_null_iff {text : List Char} {value : Value} {rest : List UInt8} :
    Reads readLexeme (Text.encode ('n' :: text)) value rest ↔
      value = .null ∧ ∃ behind, text = "ull".toList ++ behind ∧ rest = Text.encode behind :=
  reads_word_iff (by decide) (by simp) fun rest => by rw [readPlain, if_pos rfl]

theorem reads_true_iff {text : List Char} {value : Value} {rest : List UInt8} :
    Reads readLexeme (Text.encode ('t' :: text)) value rest ↔
      value = .boolean true ∧
        ∃ behind, text = "rue".toList ++ behind ∧ rest = Text.encode behind :=
  reads_word_iff (by decide) (by simp) fun rest => by
    rw [readPlain, if_neg (by decide), if_pos rfl]

theorem reads_false_iff {text : List Char} {value : Value} {rest : List UInt8} :
    Reads readLexeme (Text.encode ('f' :: text)) value rest ↔
      value = .boolean false ∧
        ∃ behind, text = "alse".toList ++ behind ∧ rest = Text.encode behind :=
  reads_word_iff (by decide) (by simp) fun rest => by
    rw [readPlain, if_neg (by decide), if_neg (by decide), if_pos rfl]

theorem reads_minus_iff {text : List Char} {value : Value} {rest : List UInt8} :
    Reads readLexeme (Text.encode ('-' :: text)) value rest ↔
      ∃ number, Reads (readUnsigned true) (Text.encode text) number rest ∧
        value = .number number := by
  rw [encode_byteOf_cons '-' (by decide), reads_readLexeme_cons_iff, readPlain,
    if_neg (by decide), if_neg (by decide), if_neg (by decide), if_pos rfl]
  constructor
  · rintro ⟨_, result⟩
    split at result
    · cases result
    · rename_i found read
      cases result
      exact ⟨found.value, .of_eq read, rfl⟩
  · rintro ⟨number, ⟨shorter, read⟩, rfl⟩
    refine ⟨Nat.lt_succ_of_lt shorter, ?_⟩
    rw [read]
    rfl

theorem reads_digit_iff {digit : Nat} (small : digit < 10) {text : List Char} {value : Value}
    {rest : List UInt8} :
    Reads readLexeme (Text.encode (Nat.digitChar digit :: text)) value rest ↔
      ∃ number, Reads (readUnsigned false) (Text.encode (Nat.digitChar digit :: text)) number rest ∧
        value = .number number := by
  obtain ⟨bytes, found⟩ := encode_digitChar_cons small text
  have isDigit : isDigit (byteOf (Nat.digitChar digit)) = true := by
    rw [Json.isDigit, found]
    rfl
  have notOther : ∀ digit < 10, byteOf (Nat.digitChar digit) ≠ byteOf 'n' ∧
      byteOf (Nat.digitChar digit) ≠ byteOf 't' ∧ byteOf (Nat.digitChar digit) ≠ byteOf 'f' ∧
        byteOf (Nat.digitChar digit) ≠ byteOf '-' := by
    decide
  obtain ⟨notN, notT, notF, notMinus⟩ := notOther digit small
  rw [bytes, reads_readLexeme_cons_iff]
  constructor
  · rintro ⟨_, result⟩
    rw [readPlain, if_neg notN, if_neg notT, if_neg notF, if_neg notMinus, if_pos isDigit] at result
    split at result
    · cases result
    · rename_i found read
      cases result
      exact ⟨found.value, .of_eq read, rfl⟩
  · rintro ⟨number, ⟨shorter, read⟩, rfl⟩
    refine ⟨shorter, ?_⟩
    rw [readPlain, if_neg notN, if_neg notT, if_neg notF, if_neg notMinus, if_pos isDigit, read]
    rfl

theorem reads_mark_iff {text : List Char} {value : Value} {rest : List UInt8} :
    Reads readLexeme (Text.encode ('"' :: text)) value rest ↔
      ∃ string, Reads readString (Text.encode text) string rest ∧ value = .string string := by
  rw [encode_byteOf_cons '"' (by decide), reads_readLexeme_cons_iff, readPlain,
    if_neg (by decide), if_neg (by decide), if_neg (by decide), if_neg (by decide),
    if_neg (by decide), if_pos (show byteOf '"' = quoteMark from rfl)]
  constructor
  · rintro ⟨_, result⟩
    split at result
    · cases result
    · rename_i found read
      cases result
      exact ⟨found.value, .of_eq read, rfl⟩
  · rintro ⟨string, ⟨shorter, read⟩, rfl⟩
    refine ⟨Nat.lt_succ_of_lt shorter, ?_⟩
    rw [read]
    rfl

/-- The characters with which words, numbers and strings begin. -/
inductive OpensLexeme : Char → Prop where
  | null : OpensLexeme 'n'
  | true : OpensLexeme 't'
  | false : OpensLexeme 'f'
  | minus : OpensLexeme '-'
  | digit {digit : Nat} (small : digit < 10) : OpensLexeme (Nat.digitChar digit)
  | mark : OpensLexeme '"'

theorem opensLexeme_of_reads {text : List Char} {value : Value} {rest : List UInt8}
    (reads : Reads readLexeme (Text.encode text) value rest) :
    ∃ first others, text = first :: others ∧ OpensLexeme first := by
  cases text with
  | nil =>
      exact absurd reads.shorter (Nat.not_lt_zero _)
  | cons character others =>
      refine ⟨character, others, rfl, ?_⟩
      obtain ⟨first, behind, bytes⟩ : ∃ first behind,
          Text.encode (character :: others) = first :: behind :=
        List.exists_cons_of_ne_nil fun empty => by
          rw [empty] at reads
          exact absurd reads.shorter (Nat.not_lt_zero _)
      have opens : ∀ mark : Char, mark.toNat < 128 → first = byteOf mark → character = mark := by
        rintro mark ascii rfl
        obtain ⟨_, same, -⟩ := (encode_eq_byteOf_cons_iff mark ascii).mp bytes
        exact (List.cons.inj same).1
      rw [bytes, reads_readLexeme_cons_iff] at reads
      obtain ⟨_, result⟩ := reads
      unfold readPlain at result
      split at result
      · rename_i same
        exact opens 'n' (by decide) same ▸ .null
      · split at result
        · rename_i same
          exact opens 't' (by decide) same ▸ .true
        · split at result
          · rename_i same
            exact opens 'f' (by decide) same ▸ .false
          · split at result
            · rename_i same
              exact opens '-' (by decide) same ▸ .minus
            · split at result
              · rename_i isDigit
                obtain ⟨digit, found⟩ := Option.isSome_iff_exists.mp isDigit
                obtain ⟨small, _, same, -⟩ := eq_digitChar_cons bytes found
                exact (List.cons.inj same).1 ▸ .digit small
              · split at result
                · rename_i same
                  exact opens '"' (by decide) same ▸ .mark
                · cases result

theorem OpensLexeme.opensItem {first : Char} (opens : OpensLexeme first) : OpensItem first := by
  have digits : ∀ digit < 10, isBlankCharacter (Nat.digitChar digit) = Bool.false ∧
      Nat.digitChar digit ≠ ']' ∧ Nat.digitChar digit ≠ '\x7d' := by
    decide
  cases opens with
  | digit small => exact digits _ small
  | _ => exact ⟨by decide, by decide, by decide⟩

/-- What is read behind blanks as one lexeme is one. -/
theorem exists_plainText {text : List Char} {value : Value} {rest : List UInt8}
    (reads : Reads readLexeme (Text.encode text) value rest) :
    ∃ lexeme behind, PlainText value [lexeme] ∧ text = lexeme ++ behind ∧
      rest = Text.encode behind := by
  obtain ⟨first, others, rfl, opens⟩ := opensLexeme_of_reads reads
  cases opens with
  | null =>
      obtain ⟨rfl, behind, rfl, rfl⟩ := reads_null_iff.mp reads
      exact ⟨_, behind, .null, rfl, rfl⟩
  | true =>
      obtain ⟨rfl, behind, rfl, rfl⟩ := reads_true_iff.mp reads
      exact ⟨_, behind, .true, rfl, rfl⟩
  | false =>
      obtain ⟨rfl, behind, rfl, rfl⟩ := reads_false_iff.mp reads
      exact ⟨_, behind, .false, rfl, rfl⟩
  | minus =>
      obtain ⟨number, readsNumber, rfl⟩ := reads_minus_iff.mp reads
      obtain ⟨numeral, written, behind, negative, unsigned, decoded, rfl, rfl⟩ :=
        exists_unsignedText readsNumber
      have numberText := numberText_iff.mpr ⟨numeral, written, unsigned, rfl, decoded⟩
      rw [negative] at numberText
      exact ⟨_, behind, .number numberText, rfl, rfl⟩
  | digit small =>
      obtain ⟨number, readsNumber, rfl⟩ := (reads_digit_iff small).mp reads
      obtain ⟨numeral, written, behind, negative, unsigned, decoded, opened, rfl⟩ :=
        exists_unsignedText readsNumber
      have numberText := numberText_iff.mpr ⟨numeral, written, unsigned, rfl, decoded⟩
      rw [negative] at numberText
      exact ⟨_, behind, .number numberText, opened, rfl⟩
  | mark =>
      obtain ⟨string, readsString, rfl⟩ := reads_mark_iff.mp reads
      obtain ⟨written, behind, literal, rfl, rfl⟩ := reads_readString_iff.mp readsString
      exact ⟨_, behind, .string (.marks literal), by simp, rfl⟩

theorem UnsignedText.eq_digitChar_cons {numeral : Numeral} {text : List Char}
    (written : UnsignedText numeral text) :
    ∃ digit < 10, ∃ others, text = Nat.digitChar digit :: others := by
  cases written with
  | parts whole =>
      obtain ⟨digit, digits, rfl⟩ := List.exists_cons_of_ne_nil whole.nonempty
      rw [whole.written]
      exact ⟨digit, whole.small digit List.mem_cons_self, _, rfl⟩

/-- One lexeme is read up to its end. -/
theorem PlainText.reads {value : Value} {lexemes : List Lexeme} (plain : PlainText value lexemes)
    {behind : List Char} (stops : Stops behind) :
    ∃ first others, lexemes = [first :: others] ∧ OpensLexeme first ∧
      Reads readLexeme (Text.encode (first :: (others ++ behind))) value
        (Text.encode behind) := by
  cases plain with
  | null =>
      exact ⟨'n', _, rfl, .null, reads_null_iff.mpr ⟨rfl, behind, rfl, rfl⟩⟩
  | true =>
      exact ⟨'t', _, rfl, .true, reads_true_iff.mpr ⟨rfl, behind, rfl, rfl⟩⟩
  | false =>
      exact ⟨'f', _, rfl, .false, reads_false_iff.mpr ⟨rfl, behind, rfl, rfl⟩⟩
  | number written =>
      obtain ⟨⟨negative, whole, fraction, exponent⟩, text, unsigned, rfl, decoded⟩ :=
        numberText_iff.mp written
      have readsNumber := unsigned.reads decoded stops
      cases negative with
      | true =>
          exact ⟨'-', text, rfl, .minus, reads_minus_iff.mpr ⟨_, readsNumber, rfl⟩⟩
      | false =>
          obtain ⟨digit, small, others, rfl⟩ := unsigned.eq_digitChar_cons
          exact ⟨_, others, rfl, .digit small,
            (reads_digit_iff small).mpr ⟨_, readsNumber, rfl⟩⟩
  | string written =>
      cases written with
      | @marks written literal =>
          refine ⟨'"', _, rfl, .mark, reads_mark_iff.mpr ⟨_, reads_readString_iff.mpr
            ⟨written, behind, literal, ?_, rfl⟩, rfl⟩⟩
          rw [List.append_assoc]
          rfl

/-! ## Lists and objects -/

theorem readEnclosed_iff {α : Type} {enclosure : Enclosure} {read : Reader α}
    {make : List α → Value} {first : UInt8} {bytes rest : List UInt8} {value : Value} :
    (∃ shorter, readEnclosed enclosure read make first bytes = .ok ⟨value, rest, shorter⟩) ↔
      ∃ items, Reads (readItems enclosure read []) bytes items rest ∧ value = make items := by
  constructor
  · rintro ⟨_, result⟩
    unfold readEnclosed at result
    split at result
    · cases result
    · rename_i found read
      cases result
      exact ⟨found.value, .of_eq read, rfl⟩
  · rintro ⟨items, ⟨shorter, read⟩, rfl⟩
    refine ⟨Nat.lt_succ_of_lt shorter, ?_⟩
    rw [readEnclosed, read]
    rfl

/-- Behind its opening byte a list or an object takes its items. -/
def ReadsEnclosed (nesting : Nat) (bytes : List UInt8) (value : Value) (rest : List UInt8) : Prop :=
  (∃ others items, bytes = byteOf '[' :: others ∧ value = .array items ∧
      Reads (readItems listEnclosure (readValue nesting) []) others items rest) ∨
    ∃ others members, bytes = byteOf '\x7b' :: others ∧ value = .object members ∧
      Reads (readItems objectEnclosure (readMember (readValue nesting)) []) others members rest

theorem not_bracket_of_reads {first : UInt8} {bytes rest : List UInt8} {value : Value}
    (reads : Reads readLexeme (first :: bytes) value rest) :
    ¬ (first = byteOf '[' ∨ first = byteOf '\x7b') := by
  have bracket : readPlain (byteOf '[') bytes = .error ⟨.valueExpected, bytes⟩ := by
    rw [readPlain, if_neg (by decide), if_neg (by decide), if_neg (by decide),
      if_neg (by decide), if_neg (by decide), if_neg (by decide)]
  have brace : readPlain (byteOf '\x7b') bytes = .error ⟨.valueExpected, bytes⟩ := by
    rw [readPlain, if_neg (by decide), if_neg (by decide), if_neg (by decide),
      if_neg (by decide), if_neg (by decide), if_neg (by decide)]
  obtain ⟨_, result⟩ := reads
  rintro (rfl | rfl)
  · rw [readLexeme, bracket] at result
    cases result
  · rw [readLexeme, brace] at result
    cases result

theorem reads_readValue_zero_iff {bytes rest : List UInt8} {value : Value} :
    Reads (readValue 0) bytes value rest ↔ Reads readLexeme bytes value rest := by
  cases bytes with
  | nil =>
      exact ⟨fun reads => absurd reads.shorter (Nat.not_lt_zero _),
        fun reads => absurd reads.shorter (Nat.not_lt_zero _)⟩
  | cons first bytes =>
      constructor
      · rintro ⟨shorter, result⟩
        rw [readValue] at result
        split at result
        · cases result
        · exact ⟨shorter, result⟩
      · intro reads
        have notBracket := not_bracket_of_reads reads
        obtain ⟨shorter, result⟩ := reads
        exact ⟨shorter, by rw [readValue, if_neg notBracket]; exact result⟩

theorem reads_readValue_succ_iff {nesting : Nat} {bytes rest : List UInt8} {value : Value} :
    Reads (readValue (nesting + 1)) bytes value rest ↔
      Reads readLexeme bytes value rest ∨ ReadsEnclosed nesting bytes value rest := by
  constructor
  · rintro ⟨shorter, result⟩
    cases bytes with
    | nil =>
        exact absurd shorter (Nat.not_lt_zero _)
    | cons first bytes =>
        rw [readValue] at result
        split at result
        · rename_i bracket
          split at result
          · rename_i same
            obtain ⟨items, reads, rfl⟩ := readEnclosed_iff.mp ⟨shorter, result⟩
            exact .inr (.inl ⟨bytes, items, by rw [same], rfl, reads⟩)
          · rename_i other
            obtain ⟨members, reads, rfl⟩ := readEnclosed_iff.mp ⟨shorter, result⟩
            exact .inr (.inr ⟨bytes, members, by rw [bracket.resolve_left other], rfl, reads⟩)
        · exact .inl ⟨shorter, result⟩
  · rintro (reads | ⟨bytes, items, rfl, rfl, reads⟩ | ⟨bytes, members, rfl, rfl, reads⟩)
    · cases bytes with
      | nil =>
          exact absurd reads.shorter (Nat.not_lt_zero _)
      | cons first bytes =>
          have notBracket := not_bracket_of_reads reads
          obtain ⟨shorter, result⟩ := reads
          exact ⟨shorter, by rw [readValue, if_neg notBracket]; exact result⟩
    · have enclosed : ∃ shorter, readEnclosed listEnclosure (readValue nesting) .array (byteOf '[')
          bytes = .ok ⟨.array items, rest, shorter⟩ :=
        readEnclosed_iff.mpr ⟨items, reads, rfl⟩
      obtain ⟨shorter, result⟩ := enclosed
      refine ⟨shorter, ?_⟩
      rw [readValue, if_pos (.inl rfl), ← result]
      exact if_pos rfl
    · have enclosed : ∃ shorter, readEnclosed objectEnclosure (readMember (readValue nesting))
          .object (byteOf '\x7b') bytes = .ok ⟨.object members, rest, shorter⟩ :=
        readEnclosed_iff.mpr ⟨members, reads, rfl⟩
      obtain ⟨shorter, result⟩ := enclosed
      refine ⟨shorter, ?_⟩
      rw [readValue, if_pos (.inr rfl), ← result]
      exact if_neg (by decide)

theorem endsWith_list : EndsWith listEnclosure ']' :=
  ⟨rfl, .inl rfl⟩

theorem endsWith_object : EndsWith objectEnclosure '\x7d' :=
  ⟨rfl, .inr rfl⟩

/-- A value of one lexeme is read behind blanks exactly as it is written. -/
theorem plainText_readBy : ReadBy PlainText readLexeme where
  opens := by
    intro value lexemes plain
    obtain ⟨first, others, rfl, opens, -⟩ := plain.reads (show Stops [] by simp [Stops])
    exact ⟨first, others, [], rfl, opens.opensItem⟩
  sound := by
    intro text value rest reads
    rw [skipBlanks_encode] at reads
    obtain ⟨lexeme, behind, plain, opened, rfl⟩ := exists_plainText reads
    refine ⟨[lexeme], behind, plain, ?_, rfl⟩
    apply Leads.of_dropWhile
    rw [opened]
    exact leads_singleton lexeme behind
  complete := by
    intro value lexemes text behind plain leads stops
    obtain ⟨first, others, rfl, opens, reads⟩ := plain.reads stops
    obtain ⟨more, opened, later⟩ := (leads_cons_iff opens.opensItem.1).mp leads
    cases later
    rwa [skipBlanks_encode, opened]

theorem enclosedText_readBy {nesting : Nat} (inner : ReadBy (Written nesting) (readValue nesting)) :
    ReadBy (Written (nesting + 1)) (readValue (nesting + 1)) where
  opens := by
    rintro value lexemes (plain | enclosed)
    · exact plainText_readBy.opens plain
    · cases enclosed with
      | array => exact ⟨'[', [], _, rfl, by decide, by decide, by decide⟩
      | object => exact ⟨'\x7b', [], _, rfl, by decide, by decide, by decide⟩
  sound := by
    intro text value rest reads
    rcases reads_readValue_succ_iff.mp reads with
      reads | ⟨others, items, bytes, rfl, reads⟩ | ⟨others, members, bytes, rfl, reads⟩
    · obtain ⟨lexemes, behind, plain, leads, rfl⟩ := plainText_readBy.sound reads
      exact ⟨lexemes, behind, .inl plain, leads, rfl⟩
    · obtain ⟨start, bracket, rfl⟩ :=
        (skipBlanks_encode_eq_cons_iff (by decide) (by decide)).mp bytes
      obtain ⟨lexemes, behind, separated, leads, rfl⟩ := exists_separated inner endsWith_list reads
      exact ⟨_, behind, .inr (.array separated), leads_append_iff.mpr ⟨start, bracket, leads⟩, rfl⟩
    · obtain ⟨start, brace, rfl⟩ :=
        (skipBlanks_encode_eq_cons_iff (by decide) (by decide)).mp bytes
      obtain ⟨lexemes, behind, separated, leads, rfl⟩ :=
        exists_separated (memberText_readBy inner) endsWith_object reads
      exact ⟨_, behind, .inr (.object separated), leads_append_iff.mpr ⟨start, brace, leads⟩, rfl⟩
  complete := by
    rintro value lexemes text behind (plain | enclosed) leads stops
    · exact reads_readValue_succ_iff.mpr (.inl (plainText_readBy.complete plain leads stops))
    · refine reads_readValue_succ_iff.mpr (.inr ?_)
      cases enclosed with
      | array separated =>
          rw [← List.singleton_append, leads_append_iff] at leads
          obtain ⟨start, bracket, leads⟩ := leads
          have bytes := (skipBlanks_encode_eq_cons_iff (by decide) (by decide)).mpr
            ⟨start, bracket, rfl⟩
          exact .inl ⟨_, _, bytes, rfl, separated.reads inner endsWith_list leads⟩
      | object separated =>
          rw [← List.singleton_append, leads_append_iff] at leads
          obtain ⟨start, brace, leads⟩ := leads
          have bytes := (skipBlanks_encode_eq_cons_iff (by decide) (by decide)).mpr
            ⟨start, brace, rfl⟩
          exact .inr ⟨_, _, bytes, rfl,
            separated.reads (memberText_readBy inner) endsWith_object leads⟩

/-- Values of any depth are read exactly as they are written. -/
theorem written_readBy (nesting : Nat) : ReadBy (Written nesting) (readValue nesting) := by
  induction nesting with
  | zero =>
      exact ⟨plainText_readBy.opens,
        fun reads => plainText_readBy.sound (reads_readValue_zero_iff.mp reads),
        fun plain leads stops =>
          reads_readValue_zero_iff.mpr (plainText_readBy.complete plain leads stops)⟩
  | succ nesting inner =>
      exact enclosedText_readBy inner

/-! ## Whole texts -/

theorem parse_eq_ok_iff {text : List UInt8} {value : Value} :
    parse text = .ok value ↔
      ∃ rest, Reads (readValue maxNesting) (skipBlanks text) value rest ∧ skipBlanks rest = [] := by
  constructor
  · intro result
    unfold parse at result
    split at result
    · cases result
    · rename_i found read
      split at result
      · rename_i blank
        cases result
        exact ⟨found.rest, reads_behindBlanks_iff.mp (.of_eq read), blank⟩
      · cases result
  · rintro ⟨rest, reads, blank⟩
    obtain ⟨_, read⟩ := reads_behindBlanks_iff.mpr reads
    rw [parse, read]
    simp only [blank]

theorem skipBlanks_encode_eq_nil_iff {text : List Char} :
    skipBlanks (Text.encode text) = [] ↔
      ∀ character ∈ text, isBlankCharacter character = true := by
  rw [skipBlanks_encode, ← List.dropWhile_eq_nil_iff]
  constructor
  · intro empty
    cases left : text.dropWhile isBlankCharacter with
    | nil =>
        rfl
    | cons first others =>
        rw [left, Text.encode_cons] at empty
        exact absurd (List.append_eq_nil_iff.mp empty).1 String.utf8EncodeChar_ne_nil
  · intro blank
    rw [blank]
    rfl

/-- A text is read as a value exactly if it is spaced from lexemes of this value. -/
theorem parse_encode_eq_ok_iff {text : List Char} {value : Value} :
    parse (Text.encode text) = .ok value ↔
      ∃ lexemes, Written maxNesting value lexemes ∧ Spaced lexemes text := by
  rw [parse_eq_ok_iff]
  constructor
  · rintro ⟨rest, reads, blank⟩
    obtain ⟨lexemes, behind, written, leads, rfl⟩ := (written_readBy maxNesting).sound reads
    exact ⟨lexemes, written, behind, skipBlanks_encode_eq_nil_iff.mp blank, leads⟩
  · rintro ⟨lexemes, written, behind, blank, leads⟩
    have stops : Stops behind := by
      have atEnd := stops_append blank (show Stops [] by simp [Stops])
      rwa [List.append_nil] at atEnd
    exact ⟨Text.encode behind, (written_readBy maxNesting).complete written leads stops,
      skipBlanks_encode_eq_nil_iff.mpr blank⟩

end LabelPress.Json
