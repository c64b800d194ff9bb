import LabelPress.Json.Parse
import LabelPress.Proofs.Json.Grammar
import LabelPress.Proofs.Text.Ascii
import Mathlib.Data.List.TakeWhile

/-!
# What readers take

A reader takes a value from the beginning of bytes (`Reads`).  Blanks, single lexemes and words are
taken from the bytes of a text exactly if the text has them (`skipBlanks_encode_eq_cons_iff`,
`reads_readWord_iff`), and reading of items goes on exactly behind a comma
(`reads_readItems_iff`).
-/

namespace LabelPress.Json

/-- A reader takes `value` from the beginning of `bytes`, and `rest` stands behind it. -/
def Reads {α : Type} (read : Reader α) (bytes : List UInt8) (value : α)
    (rest : List UInt8) : Prop :=
  ∃ shorter, read bytes = .ok ⟨value, rest, shorter⟩

section Readers

variable {α : Type} {read : Reader α} {bytes rest : List UInt8} {value : α}

theorem Reads.of_eq {found : Found α bytes} (result : read bytes = .ok found) :
    Reads read bytes found.value found.rest :=
  ⟨found.shorter, result⟩

theorem Reads.shorter (reads : Reads read bytes value rest) : rest.length < bytes.length :=
  reads.1

theorem reads_behindBlanks_iff :
    Reads (behindBlanks read) bytes value rest ↔ Reads read (skipBlanks bytes) value rest := by
  constructor
  · rintro ⟨_, result⟩
    unfold behindBlanks at result
    split at result
    · rename_i found read
      cases result
      exact .of_eq read
    · cases result
  · rintro ⟨shorter, result⟩
    refine ⟨Nat.lt_of_lt_of_le shorter (length_skipBlanks_le bytes), ?_⟩
    rw [behindBlanks, result]
    rfl

end Readers

/-! ## Lexemes of a text -/

theorem byteOf_ofNat (byte : UInt8) : byteOf (Char.ofNat byte.toNat) = byte := by
  have bound : byte.toNat < 256 := byte.toNat_lt
  rw [byteOf, Text.toNat_ofNat (Or.inl (by omega)), UInt8.ofNat_toNat]

theorem ofNat_byteOf {character : Char} (ascii : character.toNat < 128) :
    Char.ofNat (byteOf character).toNat = character := by
  have value : (UInt8.ofNat character.toNat).toNat = character.toNat := by
    rw [UInt8.toNat_ofNat']
    omega
  rw [byteOf, value, Char.ofNat_toNat]

theorem byteOf_ne {first second : Char} (ascii : first.toNat < 128)
    (secondAscii : second.toNat < 128) (different : first ≠ second) :
    byteOf first ≠ byteOf second := by
  intro same
  rw [← ofNat_byteOf ascii, same, ofNat_byteOf secondAscii] at different
  exact different rfl

/-- The bytes of a text begin with that of a mark exactly if the text begins with the mark. -/
theorem encode_eq_byteOf_cons_iff (mark : Char) (ascii : mark.toNat < 128) {text : List Char}
    {rest : List UInt8} :
    Text.encode text = byteOf mark :: rest ↔
      ∃ behind, text = mark :: behind ∧ rest = Text.encode behind :=
  Text.encode_eq_cons_iff ascii

theorem encode_byteOf_cons (mark : Char) (ascii : mark.toNat < 128) (text : List Char) :
    Text.encode (mark :: text) = byteOf mark :: Text.encode text :=
  Text.encode_cons_of_ascii ascii text

theorem leads_append_iff {lexemes more : List Lexeme} {text behind : List Char} :
    Leads (lexemes ++ more) text behind ↔
      ∃ middle, Leads lexemes text middle ∧ Leads more middle behind := by
  constructor
  · intro leads
    induction lexemes generalizing text with
    | nil =>
        exact ⟨text, .nil text, leads⟩
    | cons lexeme lexemes ih =>
        cases leads with
        | cons blank later =>
            obtain ⟨middle, leads, more⟩ := ih later
            exact ⟨middle, .cons blank leads, more⟩
  · rintro ⟨middle, leads, more⟩
    induction leads with
    | nil =>
        exact more
    | cons blank _ ih =>
        exact .cons blank (ih more)

theorem leads_singleton (lexeme : Lexeme) (behind : List Char) :
    Leads [lexeme] (lexeme ++ behind) behind :=
  @Leads.cons [] _ _ _ _ (by simp) (.nil behind)

theorem Leads.behind_blanks {lexeme : Lexeme} {lexemes : List Lexeme}
    {blanks text behind : List Char}
    (blank : ∀ character ∈ blanks, isBlankCharacter character = true)
    (leads : Leads (lexeme :: lexemes) text behind) :
    Leads (lexeme :: lexemes) (blanks ++ text) behind := by
  cases leads with
  | cons others later =>
      rw [← List.append_assoc]
      refine .cons ?_ later
      intro character member
      exact (List.mem_append.mp member).elim (blank character) (others character)

/-- Lexemes stand behind the leading blanks of a text. -/
theorem leads_cons_iff {first : Char} {others : List Char} {lexemes : List Lexeme}
    {text behind : List Char} (notBlank : isBlankCharacter first = false) :
    Leads ((first :: others) :: lexemes) text behind ↔
      ∃ more, text.dropWhile isBlankCharacter = first :: others ++ more ∧
        Leads lexemes more behind := by
  constructor
  · intro leads
    cases leads with
    | @cons _ _ more _ _ blank later =>
        refine ⟨more, ?_, later⟩
        rw [List.dropWhile_append_of_pos blank, List.cons_append,
          List.dropWhile_cons_of_neg (by simp [notBlank])]
  · rintro ⟨more, opened, later⟩
    have split := List.takeWhile_append_dropWhile (p := isBlankCharacter) (l := text)
    rw [← split, opened]
    exact .cons (fun character member => List.mem_takeWhile_imp member) later

theorem Leads.of_dropWhile {lexeme : Lexeme} {lexemes : List Lexeme} {text behind : List Char}
    (leads : Leads (lexeme :: lexemes) (text.dropWhile isBlankCharacter) behind) :
    Leads (lexeme :: lexemes) text behind := by
  have split := List.takeWhile_append_dropWhile (p := isBlankCharacter) (l := text)
  rw [← split]
  exact leads.behind_blanks fun character member => List.mem_takeWhile_imp member

/-! ## Blanks -/

theorem sameKind_isBlank : Text.SameKind isBlank isBlankCharacter :=
  .of_ofNat
    (by
      intro character blank
      simp only [isBlankCharacter, decide_eq_true_eq] at blank
      rcases blank with rfl | rfl | rfl | rfl <;> decide)
    (by
      have all : ∀ code < 256, isBlank (UInt8.ofNat code) = isBlankCharacter (Char.ofNat code) := by
        decide +kernel
      intro byte
      rw [← all byte.toNat byte.toNat_lt, UInt8.ofNat_toNat])

theorem skipBlanks_encode (text : List Char) :
    skipBlanks (Text.encode text) = Text.encode (text.dropWhile isBlankCharacter) :=
  sameKind_isBlank.dropWhile_encode text

/-- The bytes behind the blanks begin with a mark exactly if the text behind its blanks does. -/
theorem skipBlanks_encode_eq_cons_iff {mark : Char} (ascii : mark.toNat < 128)
    (notBlank : isBlankCharacter mark = false) {text : List Char} {rest : List UInt8} :
    skipBlanks (Text.encode text) = byteOf mark :: rest ↔
      ∃ behind, Leads [[mark]] text behind ∧ rest = Text.encode behind := by
  rw [skipBlanks_encode, byteOf, Text.encode_eq_cons_iff ascii]
  constructor
  · rintro ⟨behind, opened, bytes⟩
    exact ⟨behind, (leads_cons_iff notBlank).mpr ⟨behind, opened, .nil behind⟩, bytes⟩
  · rintro ⟨behind, leads, bytes⟩
    obtain ⟨more, opened, later⟩ := (leads_cons_iff notBlank).mp leads
    cases later
    exact ⟨behind, opened, bytes⟩

theorem length_lt_of_skipBlanks {bytes behind : List UInt8} {next : UInt8}
    (opened : skipBlanks bytes = next :: behind) : behind.length < bytes.length := by
  have bound := length_skipBlanks_le bytes
  rw [opened] at bound
  exact bound

/-! ## Words -/

theorem readLetters_iff {letters bytes rest : List UInt8} :
    (∃ notLonger, readLetters bytes letters = .ok ⟨(), rest, notLonger⟩) ↔
      bytes = letters ++ rest := by
  induction letters generalizing bytes with
  | nil =>
      rw [readLetters]
      constructor
      · rintro ⟨_, result⟩
        cases result
        rfl
      · rintro rfl
        exact ⟨Nat.le_refl _, rfl⟩
  | cons letter letters ih =>
      cases bytes with
      | nil =>
          rw [readLetters]
          constructor
          · rintro ⟨_, result⟩
            cases result
          · intro bytes
            cases bytes
      | cons first bytes =>
          rw [readLetters, List.cons_append, List.cons.injEq, ← ih]
          constructor
          · rintro ⟨_, result⟩
            split at result
            · rename_i same
              split at result
              · cases result
              · rename_i taken read
                cases result
                exact ⟨same, taken.notLonger, read⟩
            · cases result
          · rintro ⟨rfl, notLonger, read⟩
            rw [if_pos rfl, read]
            exact ⟨Nat.le_succ_of_le notLonger, rfl⟩

theorem encode_word {word : List Char} (ascii : ∀ character ∈ word, character.toNat < 128) :
    Text.encode word = word.map byteOf := by
  induction word with
  | nil =>
      rfl
  | cons character word ih =>
      obtain ⟨first, later⟩ := List.forall_mem_cons.mp ascii
      rw [Text.encode_cons_of_ascii first, ih later]
      rfl

/-- Behind its first letter a word is taken exactly if its other letters follow. -/
theorem reads_readWord_iff {word value : Value} {letters : String} {first : UInt8}
    {text : List Char} {rest : List UInt8}
    (ascii : ∀ character ∈ letters.toList, character.toNat < 128) :
    (∃ shorter, readWord word letters first (Text.encode text) = .ok ⟨value, rest, shorter⟩) ↔
      value = word ∧ ∃ behind, text = letters.toList ++ behind ∧ rest = Text.encode behind := by
  rw [← Text.encode_eq_append_iff ascii, encode_word ascii, ← readLetters_iff, readWord]
  constructor
  · rintro ⟨_, result⟩
    split at result
    · cases result
    · rename_i taken read
      cases result
      exact ⟨rfl, taken.notLonger, read⟩
  · rintro ⟨rfl, notLonger, read⟩
    rw [read]
    exact ⟨Nat.lt_succ_of_le notLonger, rfl⟩

/-! ## Colons -/

theorem reads_readColon_iff {text : List Char} {rest : List UInt8} :
    Reads readColon (Text.encode text) () rest ↔
      ∃ behind, Leads [[':']] text behind ∧ rest = Text.encode behind := by
  rw [← skipBlanks_encode_eq_cons_iff (by decide) (by decide)]
  constructor
  · rintro ⟨_, result⟩
    unfold readColon at result
    split at result
    · cases result
    · rename_i next rest opened
      split at result
      · rename_i colon
        cases result
        rw [opened, colon]
      · cases result
  · intro opened
    refine ⟨length_lt_of_skipBlanks opened, ?_⟩
    unfold readColon
    split
    · rename_i empty
      rw [opened] at empty
      cases empty
    · rename_i next others other
      rw [opened] at other
      cases other
      rw [if_pos rfl]

/-! ## Items -/

section Items

variable {enclosure : Enclosure} {bytes : List UInt8}

/-- The byte behind the blanks decides how items go on. -/
theorem continuation_of_cons {next : UInt8} {behind : List UInt8}
    (opened : skipBlanks bytes = next :: behind) (first : Bool) :
    continuation enclosure first bytes =
      if next = enclosure.closing then .ok (.closed behind (length_lt_of_skipBlanks opened))
      else if first then .ok (.item (skipBlanks bytes) (length_skipBlanks_le bytes))
      else if next = byteOf ',' then
        match skipBlanks behind with
        | [] => .error ⟨.unfinishedValue, []⟩
        | item :: _ =>
          if item = enclosure.closing then .error (.atNext .trailingComma (skipBlanks behind))
          else .ok (.item (skipBlanks behind) (Nat.le_trans (length_skipBlanks_le behind)
            (Nat.le_of_lt (length_lt_of_skipBlanks opened))))
      else .error (.atNext enclosure.commaOrEndExpected (skipBlanks bytes)) := by
  unfold continuation
  split
  · rename_i empty
    rw [opened] at empty
    cases empty
  · rename_i _ _ same
    rw [opened] at same
    cases same
    rfl

theorem continuation_eq_closed_iff {first : Bool} {rest : List UInt8} :
    (∃ shorter, continuation enclosure first bytes = .ok (.closed rest shorter)) ↔
      skipBlanks bytes = enclosure.closing :: rest := by
  constructor
  · rintro ⟨_, result⟩
    unfold continuation at result
    split at result
    · cases result
    · rename_i next behind opened
      split at result
      · rename_i closing
        cases result
        rw [opened, closing]
      · repeat' split at result
        all_goals cases result
  · intro opened
    refine ⟨length_lt_of_skipBlanks opened, ?_⟩
    rw [continuation_of_cons opened, if_pos rfl]

/-- Bytes begin with something else than the closing byte. -/
def IsOpen (enclosure : Enclosure) (bytes : List UInt8) : Prop :=
  ∃ first behind, bytes = first :: behind ∧ first ≠ enclosure.closing

/-- The first item stands behind blanks. -/
theorem continuation_eq_first_iff {start : List UInt8} :
    (∃ notLonger, continuation enclosure true bytes = .ok (.item start notLonger)) ↔
      start = skipBlanks bytes ∧ IsOpen enclosure start := by
  constructor
  · rintro ⟨_, result⟩
    unfold continuation at result
    split at result
    · cases result
    · rename_i next behind opened
      split at result
      · cases result
      · rename_i notClosing
        cases result
        exact ⟨rfl, next, behind, opened, notClosing⟩
  · rintro ⟨rfl, next, behind, opened, notClosing⟩
    refine ⟨length_skipBlanks_le bytes, ?_⟩
    rw [continuation_of_cons opened, if_neg notClosing, if_pos rfl]

/-- A further item stands behind a comma and blanks. -/
theorem continuation_eq_further_iff (notComma : enclosure.closing ≠ byteOf ',')
    {start : List UInt8} :
    (∃ notLonger, continuation enclosure false bytes = .ok (.item start notLonger)) ↔
      ∃ behind, skipBlanks bytes = byteOf ',' :: behind ∧ start = skipBlanks behind ∧
        IsOpen enclosure start := by
  constructor
  · rintro ⟨_, result⟩
    unfold continuation at result
    split at result
    · cases result
    · rename_i next behind opened
      split at result
      · cases result
      · rw [if_neg Bool.false_ne_true] at result
        split at result
        · rename_i comma
          split at result
          · cases result
          · rename_i item more itemOpened
            split at result
            · cases result
            · rename_i notClosing
              cases result
              exact ⟨behind, by rw [opened, comma], rfl, item, more, itemOpened, notClosing⟩
        · cases result
  · rintro ⟨behind, opened, rfl, item, more, itemOpened, notClosing⟩
    have shorter := Nat.le_of_lt (length_lt_of_skipBlanks opened)
    refine ⟨Nat.le_trans (length_skipBlanks_le behind) shorter, ?_⟩
    rw [continuation_of_cons opened, if_neg (Ne.symm notComma), if_neg Bool.false_ne_true,
      if_pos rfl]
    simp only [itemOpened, if_neg notClosing]

variable {α : Type} {read : Reader α}

/-- Items are taken up to the closing byte, one after the other. -/
theorem reads_readItems_iff {reversed items : List α} {rest : List UInt8} :
    Reads (readItems enclosure read reversed) bytes items rest ↔
      (skipBlanks bytes = enclosure.closing :: rest ∧ items = reversed.reverse) ∨
        ∃ start item middle,
          (∃ notLonger, continuation enclosure reversed.isEmpty bytes =
            .ok (.item start notLonger)) ∧
          Reads read start item middle ∧
          Reads (readItems enclosure read (item :: reversed)) middle items rest := by
  constructor
  · rintro ⟨_, result⟩
    unfold readItems at result
    split at result
    · cases result
    · rename_i closed shorter continued
      cases result
      exact .inl ⟨continuation_eq_closed_iff.mp ⟨shorter, continued⟩, rfl⟩
    · rename_i start notLonger continued
      split at result
      · cases result
      · rename_i item readItem
        split at result
        · cases result
        · rename_i found readLater
          cases result
          exact .inr ⟨start, item.value, item.rest, ⟨notLonger, continued⟩, .of_eq readItem,
            .of_eq readLater⟩
  · rintro (⟨opened, rfl⟩ | ⟨start, item, middle, ⟨notLonger, continued⟩, ⟨shorter, readItem⟩,
      ⟨laterShorter, readLater⟩⟩)
    · obtain ⟨shorter, continued⟩ := continuation_eq_closed_iff.mpr opened
      refine ⟨shorter, ?_⟩
      unfold readItems
      rw [continued]
    · refine ⟨Nat.lt_of_lt_of_le (Nat.lt_trans laterShorter shorter) notLonger, ?_⟩
      unfold readItems
      rw [continued]
      simp only [readItem, readLater]
      rfl

end Items

end LabelPress.Json
