import LabelPress.Markup.Graphic
import LabelPress.Proofs.Markup.HexEscape

/-!
# Compressed bitmaps

A bitmap can be written in many ways.  Its digits stand one by one or in runs, which letters in
front of the digit count (`Runs`).  A row is written as a whole, up to a comma or an exclamation
mark that fills it, or as a colon if it is the row before it (`RowText`).  Blanks may stand anywhere
in between, and anything behind the last row (`Encodes`).

The main statement (`unpack_of_encodes`) says that all of them are unpacked to the bitmap itself.
Its proof follows the rows.  Inside a row the state holds the digits so far, and it is closed
exactly when the row is full (`Unpacking.opened`); between two rows it holds the row before.
-/

namespace LabelPress.Markup.Graphic

open LabelPress.Text

/-! ## Ways of writing a bitmap -/

/-- Letters that count the repetitions of a digit: `G` to `Y` add ones and `g` to `z` twenties. -/
inductive Counts : Nat → List Char → Prop where
  | nil : Counts 0 []
  | ones (index : Fin 19) {count : Nat} {letters : List Char} (later : Counts count letters) :
      Counts (index.val + 1 + count) (Char.ofNat ('G'.toNat + index.val) :: letters)
  | twenties (index : Fin 20) {count : Nat} {letters : List Char} (later : Counts count letters) :
      Counts (20 * (index.val + 1) + count) (Char.ofNat ('g'.toNat + index.val) :: letters)

/-- Digits are written one by one, or as runs of equal ones with the letters that count them. -/
inductive Runs : List Nat → List Char → Prop where
  | nil : Runs [] []
  | digit {value : Nat} {character : Char} {digits : List Nat} {text : List Char}
      (small : value < 16) (written : character ∈ HexEscape.hexDigits value)
      (later : Runs digits text) :
      Runs (value :: digits) (character :: text)
  | run {count value : Nat} {letters : List Char} {character : Char} {digits : List Nat}
      {text : List Char} (positive : 0 < count) (counted : Counts count letters)
      (small : value < 16) (written : character ∈ HexEscape.hexDigits value)
      (later : Runs digits text) :
      Runs (List.replicate count value ++ digits) (letters ++ character :: text)

/-- The ways of writing a row behind another one. -/
inductive RowText (previous : List Nat) : List Nat → List Char → Prop where
  /-- All digits are written. -/
  | whole {row : List Nat} {text : List Char} (runs : Runs row text) : RowText previous row text
  /-- A comma stands for the zeros at the end. -/
  | zeros {front : List Nat} {count : Nat} {text : List Char} (positive : 0 < count)
      (runs : Runs front text) :
      RowText previous (front ++ List.replicate count 0) (text ++ [','])
  /-- An exclamation mark stands for the ones at the end. -/
  | ones {front : List Nat} {count : Nat} {text : List Char} (positive : 0 < count)
      (runs : Runs front text) :
      RowText previous (front ++ List.replicate count 15) (text ++ ['!'])
  /-- A colon stands for the row before. -/
  | again : RowText previous previous [':']

/-- Rows are written one after another. -/
inductive RowsText : List Nat → List (List Nat) → List Char → Prop where
  | nil {previous : List Nat} : RowsText previous [] []
  | cons {previous row : List Nat} {rows : List (List Nat)} {text later : List Char}
      (first : RowText previous row text) (rest : RowsText row rows later) :
      RowsText previous (row :: rows) (text ++ later)

/-- The digits of bytes, two for each. -/
def digits (bytes : List UInt8) : List Nat :=
  bytes.flatMap fun byte => [byte.toNat / 16, byte.toNat % 16]

/--
Data encode the rows of a bitmap.  The row before the first one counts as zero, blanks are left
out, and what stands behind the last row does not matter.
-/
def Encodes (rowBytes : Nat) (bitmap : List (List UInt8)) (data : List Char) : Prop :=
  ∃ body behind, data = body ++ behind ∧
    RowsText (List.replicate (2 * rowBytes) 0) (bitmap.map digits) (body.filter (!isBlank ·))

@[simp]
theorem length_digits (bytes : List UInt8) : (digits bytes).length = 2 * bytes.length := by
  induction bytes with
  | nil =>
      rfl
  | cons byte bytes ih =>
      show (digits bytes).length + 2 = 2 * (bytes.length + 1)
      omega

/-- The digits of bytes are packed to the bytes. -/
@[simp]
theorem pack_digits (bytes : List UInt8) : pack (digits bytes) = bytes := by
  induction bytes with
  | nil =>
      rfl
  | cons byte bytes ih =>
      show UInt8.ofNat (16 * (byte.toNat / 16) + byte.toNat % 16) :: pack (digits bytes) = _
      rw [Nat.div_add_mod, UInt8.ofNat_toNat, ih]

theorem small_of_mem_digits {bytes : List UInt8} {value : Nat} (member : value ∈ digits bytes) :
    value < 16 := by
  rcases List.mem_flatMap.mp member with ⟨byte, -, inByte⟩
  have bound : byte.toNat < 256 := byte.toNat_lt
  rcases List.mem_cons.mp inByte with rfl | inByte
  · omega
  · rw [List.mem_singleton.mp inByte]
    omega

/-! ## Existence -/

/-- Digits can be written one by one. -/
theorem exists_runs {row : List Nat} (small : ∀ value ∈ row, value < 16) :
    ∃ text, Runs row text ∧ text.filter (!isBlank ·) = text := by
  induction row with
  | nil =>
      exact ⟨[], .nil, rfl⟩
  | cons value row ih =>
      rcases ih fun other member => small other (List.mem_cons_of_mem _ member) with
        ⟨text, runs, plain⟩
      have valueSmall := small value List.mem_cons_self
      have notBlank : ∀ value < 16, isBlank (Nat.digitChar value) = false := by
        decide
      refine ⟨Nat.digitChar value :: text, .digit valueSmall List.mem_cons_self runs, ?_⟩
      rw [List.filter_cons_of_pos (by rw [notBlank value valueSmall]; rfl), plain]

theorem exists_rowsText (previous : List Nat) (bitmap : List (List UInt8)) :
    ∃ text, RowsText previous (bitmap.map digits) text ∧ text.filter (!isBlank ·) = text := by
  induction bitmap generalizing previous with
  | nil =>
      exact ⟨[], .nil, rfl⟩
  | cons row bitmap ih =>
      rcases exists_runs fun value (member : value ∈ digits row) => small_of_mem_digits member with
        ⟨first, runs, firstPlain⟩
      rcases ih (digits row) with ⟨later, rest, laterPlain⟩
      refine ⟨first ++ later, .cons (.whole runs) rest, ?_⟩
      rw [List.filter_append, firstPlain, laterPlain]

/-- Every bitmap can be written. -/
theorem exists_encodes (rowBytes : Nat) (bitmap : List (List UInt8)) :
    ∃ data, Encodes rowBytes bitmap data := by
  rcases exists_rowsText (List.replicate (2 * rowBytes) 0) bitmap with ⟨text, rows, plain⟩
  refine ⟨text, text, [], (List.append_nil text).symm, ?_⟩
  rw [plain]
  exact rows

namespace Unpacking

/-! ## Single characters -/

section Characters

variable {width total : Nat} {state : Unpacking}

theorem run_cons_of_ok {after : Unpacking} {character : Char} (rest : List Char)
    (notFull : state.packed.size < total) (step : state.step width character = .ok after) :
    state.run width total (character :: rest) = after.run width total rest := by
  rw [run, if_neg (by omega), step]

theorem run_of_full (text : List Char) (full : total ≤ state.packed.size) :
    state.run width total text = .ok state := by
  cases text with
  | nil =>
      rfl
  | cons character rest =>
      rw [run, if_pos full]

theorem step_of_repeats {character : Char} {count : Nat}
    (letter : repeats? character = some count) :
    state.step width character = .ok { state with repeats := state.repeats + count } := by
  rw [step, letter]

theorem repeats?_digitChar : ∀ value < 16,
    (repeats? (Nat.digitChar value) = none ∧ Nat.digitChar value ∉ [',', '!', ':']) ∧
      repeats? (Nat.digitChar value).toUpper = none ∧
        (Nat.digitChar value).toUpper ∉ [',', '!', ':'] := by
  decide

/-- A digit of either case does not count repetitions, and it is none of the marks. -/
theorem repeats?_of_mem_hexDigits {value : Nat} {character : Char} (small : value < 16)
    (written : character ∈ HexEscape.hexDigits value) :
    repeats? character = none ∧ character ∉ [',', '!', ':'] := by
  rcases List.mem_cons.mp written with rfl | written
  · exact (repeats?_digitChar value small).1
  · rw [List.mem_singleton.mp written]
    exact (repeats?_digitChar value small).2

theorem step_of_mem_hexDigits {value : Nat} {character : Char} (small : value < 16)
    (written : character ∈ HexEscape.hexDigits value) :
    state.step width character = .ok (state.pushRun width value) := by
  rcases repeats?_of_mem_hexDigits small written with ⟨noLetter, noMarks⟩
  simp only [List.mem_cons, List.not_mem_nil, or_false, not_or] at noMarks
  obtain ⟨noComma, noMark, noColon⟩ := noMarks
  rw [step, noLetter]
  simp only [if_neg noComma, if_neg noMark, if_neg noColon,
    HexEscape.hexDigit?_of_mem_hexDigits small written]

theorem toNat_of_isBlank {character : Char} (blank : isBlank character = true) :
    character.toNat ≤ 0x20 ∨ 0x80 ≤ character.toNat := by
  simp only [isBlank, blankRanges, List.any_cons, List.any_nil, Bool.or_false, Bool.or_eq_true,
    Bool.and_eq_true, decide_eq_true_eq] at blank
  omega

/-- Blanks change nothing. -/
theorem step_of_isBlank {character : Char} (blank : isBlank character = true) :
    state.step width character = .ok state := by
  have code := toNat_of_isBlank blank
  have outside : ∀ low high : Char, 0x20 < low.toNat → high.toNat < 0x80 →
      ¬ (low ≤ character ∧ character ≤ high) := by
    rintro low high lowBound highBound ⟨above, below⟩
    have aboveCode : low.toNat ≤ character.toNat := above
    have belowCode : character.toNat ≤ high.toNat := below
    omega
  have differs : ∀ other : Char, 0x20 < other.toNat → other.toNat < 0x80 →
      character ≠ other := by
    rintro other lowBound highBound rfl
    omega
  have noLetter : repeats? character = none := by
    rw [repeats?, if_neg (outside 'G' 'Y' (by decide) (by decide)),
      if_neg (outside 'g' 'z' (by decide) (by decide))]
  have noDigit : hexDigit? character = none := by
    rw [hexDigit?, if_neg (outside '0' '9' (by decide) (by decide)),
      if_neg (outside 'a' 'f' (by decide) (by decide)),
      if_neg (outside 'A' 'F' (by decide) (by decide))]
  rw [step, noLetter]
  simp only [if_neg (differs ',' (by decide) (by decide)),
    if_neg (differs '!' (by decide) (by decide)),
    if_neg (differs ':' (by decide) (by decide)), noDigit, blank, if_true]

/-- Data are unpacked as if their blanks were left out. -/
theorem run_filter_isBlank (state : Unpacking) (body behind : List Char) :
    state.run width total (body.filter (!isBlank ·) ++ behind) =
      state.run width total (body ++ behind) := by
  induction body generalizing state with
  | nil =>
      rfl
  | cons character body ih =>
      by_cases full : total ≤ state.packed.size
      · rw [run_of_full _ full, run_of_full _ full]
      · cases blank : isBlank character with
        | true =>
            rw [List.filter_cons_of_neg (by rw [blank]; simp), ih, List.cons_append,
              run_cons_of_ok _ (by omega) (step_of_isBlank blank)]
        | false =>
            rw [List.filter_cons_of_pos (by rw [blank]; rfl), List.cons_append, List.cons_append,
              run, run, if_neg full, if_neg full]
            cases state.step width character with
            | error fault =>
                rfl
            | ok after =>
                exact ih after

end Characters

/-! ## Rows -/

section Rows

variable {width total : Nat} {previous : List Nat} {packed : Array UInt8}

/-- The state behind the first digits of a row: once the row is full, it is closed. -/
def opened (width repeats : Nat) (front previous : List Nat) (packed : Array UInt8) : Unpacking :=
  if front.length < width then ⟨repeats, front.reverse, front.length, previous, packed⟩
  else ⟨repeats, [], 0, front, packed ++ pack front⟩

theorem opened_of_lt {repeats : Nat} {front : List Nat} (inside : front.length < width) :
    opened width repeats front previous packed =
      ⟨repeats, front.reverse, front.length, previous, packed⟩ :=
  if_pos inside

theorem opened_of_full {repeats : Nat} {row : List Nat} (full : row.length = width) :
    opened width repeats row previous packed = ⟨repeats, [], 0, row, packed ++ pack row⟩ :=
  if_neg (by omega)

theorem closeRow_opened {front : List Nat} (fill repeats : Nat) (inside : front.length < width) :
    closeRow width fill (opened width repeats front previous packed) =
      opened width repeats (front ++ List.replicate (width - front.length) fill) previous
        packed := by
  rw [opened_of_lt inside, opened_of_full (by simp; omega)]
  simp [closeRow]

theorem push_opened {front : List Nat} (digit repeats : Nat) (inside : front.length < width) :
    push width digit (opened width repeats front previous packed) =
      opened width repeats (front ++ [digit]) previous packed := by
  rw [opened_of_lt inside, push]
  by_cases full : front.length + 1 = width
  · rw [if_pos full, opened_of_full (by simpa using full)]
    simp [closeRow, full]
  · rw [if_neg full, opened_of_lt (by simp; omega)]
    simp

theorem pushMany_opened (digit repeats count : Nat) {front : List Nat}
    (fits : front.length + count ≤ width) :
    pushMany width digit count (opened width repeats front previous packed) =
      opened width repeats (front ++ List.replicate count digit) previous packed := by
  induction count generalizing front with
  | zero =>
      simp [pushMany]
  | succ count ih =>
      rw [pushMany, push_opened digit repeats (by omega), ih (by simp; omega), List.append_assoc,
        List.singleton_append, ← List.replicate_succ]

/-- A digit is written as often as was counted. -/
theorem pushRun_opened (digit repeats : Nat) {front : List Nat}
    (fits : front.length + max repeats 1 ≤ width) :
    pushRun width digit (opened width repeats front previous packed) =
      opened width 0 (front ++ List.replicate (max repeats 1) digit) previous packed := by
  have counted : (opened width repeats front previous packed).repeats = repeats := by
    unfold opened
    split <;> rfl
  rw [pushRun, counted, pushMany_opened digit repeats _ fits]
  unfold opened
  split <;> rfl

/-- Letters add up. -/
theorem run_letters {count : Nat} {letters : List Char} (counted : Counts count letters)
    {front : List Nat} (repeats : Nat) (text : List Char) (inside : front.length < width)
    (notFull : packed.size < total) :
    (opened width repeats front previous packed).run width total (letters ++ text) =
      (opened width (repeats + count) front previous packed).run width total text := by
  have letterCounts : ∀ {character : Char} {added : Nat} (repeats : Nat) (rest : List Char),
      repeats? character = some added →
        (opened width repeats front previous packed).run width total (character :: rest) =
          (opened width (repeats + added) front previous packed).run width total rest := by
    intro character added repeats rest letter
    rw [opened_of_lt inside, opened_of_lt inside,
      run_cons_of_ok rest notFull (step_of_repeats letter)]
  have onesLetter : ∀ index : Fin 19,
      repeats? (Char.ofNat ('G'.toNat + index.val)) = some (index.val + 1) := by
    decide
  have twentiesLetter : ∀ index : Fin 20,
      repeats? (Char.ofNat ('g'.toNat + index.val)) = some (20 * (index.val + 1)) := by
    decide
  induction counted generalizing repeats with
  | nil =>
      rfl
  | ones index later ih =>
      rw [List.cons_append, letterCounts repeats _ (onesLetter index), ih, Nat.add_assoc]
  | twenties index later ih =>
      rw [List.cons_append, letterCounts repeats _ (twentiesLetter index), ih, Nat.add_assoc]

/-- A digit with its count is read as the run. -/
theorem run_digit (repeats : Nat) {value : Nat} {character : Char} {front : List Nat}
    (text : List Char) (small : value < 16) (written : character ∈ HexEscape.hexDigits value)
    (fits : front.length + max repeats 1 ≤ width) (notFull : packed.size < total) :
    (opened width repeats front previous packed).run width total (character :: text) =
      (opened width 0 (front ++ List.replicate (max repeats 1) value) previous packed).run
        width total text := by
  have open' : (opened width repeats front previous packed).packed.size < total := by
    rw [opened_of_lt (by omega)]
    exact notFull
  rw [run_cons_of_ok text open' (step_of_mem_hexDigits small written),
    pushRun_opened value repeats fits]

/-- Runs are read as their digits, as long as these fit the row. -/
theorem run_runs {row : List Nat} {text : List Char} (runs : Runs row text) {front : List Nat}
    (behind : List Char) (fits : front.length + row.length ≤ width)
    (notFull : packed.size < total) :
    (opened width 0 front previous packed).run width total (text ++ behind) =
      (opened width 0 (front ++ row) previous packed).run width total behind := by
  induction runs generalizing front with
  | nil =>
      rw [List.append_nil]
      rfl
  | @digit value character row text small written later ih =>
      rw [List.length_cons] at fits
      rw [List.cons_append, run_digit 0 _ small written (by omega) notFull,
        ih (by simp; omega), List.append_assoc]
      rfl
  | @run count value letters character row text positive counted small written later ih =>
      rw [List.length_append, List.length_replicate] at fits
      rw [List.append_assoc, run_letters counted 0 _ (by omega) notFull, Nat.zero_add,
        List.cons_append, run_digit count _ small written (by omega) notFull,
        Nat.max_eq_left positive, ih (by simp; omega), List.append_assoc]

/-- The state between two rows; in front of the first one there is no row. -/
def Between (width : Nat) (previous : List Nat) (packed : Array UInt8) (state : Unpacking) :
    Prop :=
  state = ⟨0, [], 0, previous, packed⟩ ∨
    (previous = List.replicate width 0 ∧ state = ⟨0, [], 0, [], packed⟩)

theorem Between.opened {state : Unpacking} (between : Between width previous packed state)
    (widthPos : 0 < width) :
    ∃ earlier, state = Unpacking.opened width 0 [] earlier packed := by
  have nothing : ([] : List Nat).length < width := widthPos
  rcases between with rfl | ⟨-, rfl⟩
  · exact ⟨previous, (opened_of_lt nothing).symm⟩
  · exact ⟨[], (opened_of_lt nothing).symm⟩

/-- A colon closes a row that equals the one before. -/
theorem Between.step_colon {state : Unpacking} (between : Between width previous packed state)
    (whole : previous.length = width) :
    state.step width ':' = .ok ⟨0, [], 0, previous, packed ++ pack previous⟩ := by
  rcases between with rfl | ⟨rfl, rfl⟩
  · show Except.ok (closeRow width 0 ⟨0, previous.reverse, previous.length, previous, packed⟩) = _
    simp [closeRow, whole]
  · rfl

/-- A character that closes a row fills up what the runs in front of it leave open. -/
theorem run_filled {front earlier : List Nat} {text : List Char} (runs : Runs front text)
    {mark : Char} {count fill : Nat}
    (closes : ∀ state : Unpacking, state.step width mark = .ok (state.closeRow width fill))
    (behind : List Char) (positive : 0 < count)
    (whole : (front ++ List.replicate count fill).length = width)
    (notFull : packed.size < total) :
    (opened width 0 [] earlier packed).run width total (text ++ [mark] ++ behind) =
      (⟨0, [], 0, front ++ List.replicate count fill,
        packed ++ pack (front ++ List.replicate count fill)⟩ : Unpacking).run width total
        behind := by
  have lengths := whole
  rw [List.length_append, List.length_replicate] at lengths
  have inside : front.length < width := by omega
  have size : (opened width 0 front earlier packed).packed.size < total := by
    rw [opened_of_lt inside]
    exact notFull
  have rest : width - front.length = count := by omega
  rw [List.append_assoc, run_runs runs _ (by simp; omega) notFull, List.nil_append,
    List.singleton_append, run_cons_of_ok behind size (closes _), closeRow_opened fill 0 inside,
    rest, opened_of_full whole]

/-- Each way of writing a row is read as that row. -/
theorem run_rowText {row : List Nat} {text : List Char} (written : RowText previous row text)
    {state : Unpacking} (between : Between width previous packed state) (behind : List Char)
    (widthPos : 0 < width) (previousWhole : previous.length = width) (whole : row.length = width)
    (notFull : packed.size < total) :
    state.run width total (text ++ behind) =
      (⟨0, [], 0, row, packed ++ pack row⟩ : Unpacking).run width total behind := by
  cases written with
  | whole runs =>
      rcases between.opened widthPos with ⟨earlier, rfl⟩
      rw [run_runs runs behind (by simp; omega) notFull, List.nil_append, opened_of_full whole]
  | zeros positive runs =>
      rcases between.opened widthPos with ⟨earlier, rfl⟩
      exact run_filled runs (fun _ => rfl) behind positive whole notFull
  | ones positive runs =>
      rcases between.opened widthPos with ⟨earlier, rfl⟩
      exact run_filled runs (fun _ => rfl) behind positive whole notFull
  | again =>
      have size : state.packed.size < total := by
        rcases between with rfl | ⟨-, rfl⟩ <;> exact notFull
      rw [List.singleton_append, run_cons_of_ok behind size (between.step_colon whole)]

/-- All rows are read, and nothing behind them. -/
theorem run_rowsText {bitmap : List (List UInt8)} {text : List Char} {rowBytes : Nat}
    (written : RowsText previous (bitmap.map digits) text)
    {state : Unpacking} (between : Between (2 * rowBytes) previous packed state)
    (behind : List Char) (rowBytesPos : 0 < rowBytes)
    (previousWhole : previous.length = 2 * rowBytes)
    (rectangular : ∀ row ∈ bitmap, row.length = rowBytes)
    (size : packed.size + rowBytes * bitmap.length = total) :
    ∃ after, state.run (2 * rowBytes) total (text ++ behind) = .ok after ∧
      after.row = [] ∧ after.packed = packed ++ bitmap.flatten := by
  -- By rows: the row that is read takes the place of the previous one, and the state lies between
  -- two rows again.
  induction bitmap generalizing previous packed state text with
  | nil =>
      rw [List.length_nil, Nat.mul_zero, Nat.add_zero] at size
      cases written
      rcases between with rfl | ⟨-, rfl⟩
      · exact ⟨_, run_of_full _ (Nat.le_of_eq size.symm), rfl, by simp⟩
      · exact ⟨_, run_of_full _ (Nat.le_of_eq size.symm), rfl, by simp⟩
  | cons row bitmap ih =>
      rw [List.map_cons] at written
      cases written with
      | cons first rest =>
          have rowSize := rectangular row List.mem_cons_self
          have whole : (digits row).length = 2 * rowBytes := by
            rw [length_digits, rowSize]
          rw [List.length_cons, Nat.mul_succ] at size
          rw [List.append_assoc, run_rowText first between _ (by omega) previousWhole whole
            (by omega), pack_digits]
          have left : (packed ++ row).size + rowBytes * bitmap.length = total := by
            rw [← Array.length_toList, Array.toList_appendList, List.length_append,
              Array.length_toList]
            omega
          have later := ih rest (Or.inl rfl) whole
            (fun other member => rectangular other (List.mem_cons_of_mem _ member)) left
          rcases later with ⟨after, read, closed, bytes⟩
          refine ⟨after, read, closed, ?_⟩
          rw [bytes, List.flatten_cons]
          apply Array.toList_inj.mp
          simp

end Rows

end Unpacking

theorem resize_of_size {size : Nat} {bytes : Array UInt8} (whole : bytes.size = size) :
    resize size bytes = bytes := by
  subst whole
  simp [resize]

/--
However a bitmap is written, the data are unpacked to its bytes; and every bitmap can be written.
-/
theorem unpack_of_encodes {rowBytes : Nat} {bitmap : List (List UInt8)}
    (rowBytesPos : 0 < rowBytes) (rectangular : ∀ row ∈ bitmap, row.length = rowBytes) :
    (∃ data, Encodes rowBytes bitmap data) ∧
      ∀ data, Encodes rowBytes bitmap data →
        unpack data rowBytes bitmap.length = .ok bitmap.flatten.toArray := by
  refine ⟨exists_encodes rowBytes bitmap, ?_⟩
  rintro data ⟨body, behind, rfl, written⟩
  have start : Unpacking.Between (2 * rowBytes) (List.replicate (2 * rowBytes) 0) #[] .empty :=
    Or.inr ⟨rfl, rfl⟩
  rcases Unpacking.run_rowsText written start behind rowBytesPos (by simp) rectangular rfl with
    ⟨after, read, closed, bytes⟩
  rw [Array.size_empty, Nat.zero_add, Unpacking.run_filter_isBlank] at read
  have size : bitmap.flatten.toArray.size = rowBytes * bitmap.length := by
    rw [List.size_toArray, List.length_flatten, List.map_congr_left rectangular, List.map_const',
      List.sum_replicate_nat, Nat.mul_comm]
  have packed : (after.finish (2 * rowBytes)).packed = bitmap.flatten.toArray := by
    rw [Unpacking.finish, closed]
    show after.packed = _
    apply Array.toList_inj.mp
    rw [bytes, Array.toList_appendList, List.nil_append]
  rw [unpack, read]
  show Except.ok (resize _ (after.finish (2 * rowBytes)).packed) = _
  rw [packed, resize_of_size size]

/-- Rows of every form, with blanks between letters and digits and more data behind the last row. -/
theorem unpack_of_five_rows :
    (∀ row ∈ ([[0, 0], [0xFF, 0xF0], [0xFF, 0xF0], [0xA0, 0x00], [0x1F, 0xFF]] :
        List (List UInt8)), row.length = 2) ∧
      Encodes 2 [[0, 0], [0xFF, 0xF0], [0xFF, 0xF0], [0xA0, 0x00], [0x1F, 0xFF]]
        ": I fG0\n:a,1!?".toList ∧
      unpack ": I fG0\n:a,1!?".toList 2 5 =
        .ok #[0, 0, 0xFF, 0xF0, 0xFF, 0xF0, 0xA0, 0x00, 0x1F, 0xFF] := by
  have rectangular : ∀ row ∈ ([[0, 0], [0xFF, 0xF0], [0xFF, 0xF0], [0xA0, 0x00], [0x1F, 0xFF]] :
      List (List UInt8)), row.length = 2 := by
    decide
  have three : Counts 3 ['I'] := .ones 2 .nil
  have one : Counts 1 ['G'] := .ones 0 .nil
  have second : Runs [15, 15, 15, 0] ['I', 'f', 'G', '0'] :=
    .run (by decide) three (by decide) (by decide)
      (.run (by decide) one (by decide) (by decide) .nil)
  have blank : RowText [0, 0, 0, 0] [0, 0, 0, 0] [':'] := .again
  have ten : Runs [10] ['a'] := .digit (by decide) (by decide) .nil
  have zeros : RowText [15, 15, 15, 0] ([10] ++ List.replicate 3 0) (['a'] ++ [',']) :=
    .zeros (by decide) ten
  have single : Runs [1] ['1'] := .digit (by decide) (by decide) .nil
  have ones : RowText [10, 0, 0, 0] ([1] ++ List.replicate 3 15) (['1'] ++ ['!']) :=
    .ones (by decide) single
  have rows : RowsText [0, 0, 0, 0]
      [[0, 0, 0, 0], [15, 15, 15, 0], [15, 15, 15, 0], [10, 0, 0, 0], [1, 15, 15, 15]]
      ":IfG0:a,1!".toList :=
    .cons blank <| .cons (.whole second) <| .cons .again <| .cons zeros <| .cons ones .nil
  have encodes : Encodes 2 [[0, 0], [0xFF, 0xF0], [0xFF, 0xF0], [0xA0, 0x00], [0x1F, 0xFF]]
      ": I fG0\n:a,1!?".toList :=
    ⟨": I fG0\n:a,1!".toList, ['?'], rfl, rows⟩
  exact ⟨rectangular, encodes, (unpack_of_encodes (by decide) rectangular).2 _ encodes⟩

end LabelPress.Markup.Graphic
