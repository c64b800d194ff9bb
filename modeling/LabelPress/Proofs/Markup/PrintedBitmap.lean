import LabelPress.Proofs.Drawing.PaintOrder
import LabelPress.Proofs.Markup.CompressedBitmap
import LabelPress.Proofs.Markup.LabelHome

/-!
# A bitmap is printed bit for bit

A bitmap that is written plainly, with two digits for a byte and nothing else (`PlainHex`), has the
digits of its rows one after another, whatever the length of a row is (`PlainHex.exists_rows`).  So
it is unpacked to its own bytes (`unpack_of_plainHex`).

The main statement (`bitmapText_prints`) follows such a bitmap from the markup of a label onto the
canvas.  The markup is read as one element with the bitmap as its content, and drawing makes those
dots black whose bits are set, counted from the origin of the field, which may lie outside the
canvas.
-/

namespace LabelPress.Markup

open LabelPress.Text

namespace Graphic

/-! ## Plain data -/

/-- Bytes are written one after another, with two digits of either case. -/
inductive PlainHex : List UInt8 → List Char → Prop where
  | nil : PlainHex [] []
  | cons {byte : UInt8} {high low : Char} {bytes : List UInt8} {text : List Char}
      (upperHalf : high ∈ HexEscape.hexDigits (byte.toNat / 16))
      (lowerHalf : low ∈ HexEscape.hexDigits (byte.toNat % 16))
      (later : PlainHex bytes text) :
      PlainHex (byte :: bytes) (high :: low :: text)

namespace PlainHex

variable {bytes : List UInt8} {text : List Char}

/-- Plain data are the digits of the bytes, written one by one. -/
theorem runs (plain : PlainHex bytes text) : Runs (digits bytes) text := by
  induction plain with
  | nil =>
      exact .nil
  | @cons byte high low bytes text upperHalf lowerHalf later ih =>
      have bound : byte.toNat < 256 := byte.toNat_lt
      exact .digit (by omega) upperHalf (.digit (by omega) lowerHalf ih)

theorem exists_hexDigit? (plain : PlainHex bytes text) :
    ∀ character ∈ text, ∃ value, hexDigit? character = some value := by
  induction plain with
  | nil =>
      intro character member
      cases member
  | @cons byte high low bytes text upperHalf lowerHalf later ih =>
      have bound : byte.toNat < 256 := byte.toNat_lt
      intro character member
      rcases List.mem_cons.mp member with rfl | member
      · exact ⟨_, HexEscape.hexDigit?_of_mem_hexDigits (by omega) upperHalf⟩
      rcases List.mem_cons.mp member with rfl | member
      · exact ⟨_, HexEscape.hexDigit?_of_mem_hexDigits (by omega) lowerHalf⟩
      · exact ih character member

/-- Plain data hold digits only. -/
theorem not_mem (plain : PlainHex bytes text) {character : Char}
    (noDigit : hexDigit? character = none) :
    character ∉ text := by
  intro member
  obtain ⟨value, digit⟩ := plain.exists_hexDigit? character member
  rw [noDigit] at digit
  cases digit

/-- Wherever the bytes are cut, their data are cut as well. -/
theorem exists_append {front behind : List UInt8} (plain : PlainHex (front ++ behind) text) :
    ∃ frontText behindText, text = frontText ++ behindText ∧ PlainHex front frontText ∧
      PlainHex behind behindText := by
  induction front generalizing text with
  | nil =>
      exact ⟨[], text, rfl, .nil, plain⟩
  | cons byte front ih =>
      cases plain with
      | cons upperHalf lowerHalf later =>
          obtain ⟨frontText, behindText, rfl, frontPlain, behindPlain⟩ := ih later
          exact ⟨_, behindText, rfl, .cons upperHalf lowerHalf frontPlain, behindPlain⟩

/-- Plain data are rows written as a whole, for any length of a row. -/
theorem exists_rows {rowBytes rows : Nat} (plain : PlainHex bytes text)
    (size : bytes.length = rowBytes * rows) (previous : List Nat) :
    ∃ bitmap : List (List UInt8), bitmap.flatten = bytes ∧ bitmap.length = rows ∧
      (∀ row ∈ bitmap, row.length = rowBytes) ∧ RowsText previous (bitmap.map digits) text := by
  induction rows generalizing bytes text previous with
  | zero =>
      obtain rfl := List.eq_nil_of_length_eq_zero size
      cases plain
      exact ⟨[], rfl, rfl, by simp, .nil⟩
  | succ rows ih =>
      rw [Nat.mul_succ] at size
      rw [← List.take_append_drop rowBytes bytes] at plain
      obtain ⟨rowText, laterText, rfl, rowPlain, laterPlain⟩ := plain.exists_append
      have rowSize : (bytes.take rowBytes).length = rowBytes := by
        rw [List.length_take]
        omega
      have laterSize : (bytes.drop rowBytes).length = rowBytes * rows := by
        rw [List.length_drop]
        omega
      obtain ⟨bitmap, joined, count, rectangular, written⟩ :=
        ih laterPlain laterSize (digits (bytes.take rowBytes))
      refine ⟨bytes.take rowBytes :: bitmap, ?_, ?_, ?_, .cons (.whole rowPlain.runs) written⟩
      · rw [List.flatten_cons, joined, List.take_append_drop]
      · rw [List.length_cons, count]
      · exact List.forall_mem_cons.mpr ⟨rowSize, rectangular⟩

end PlainHex

/-- Every bitmap can be written plainly. -/
theorem exists_plainHex (bytes : List UInt8) : ∃ text, PlainHex bytes text := by
  induction bytes with
  | nil =>
      exact ⟨[], .nil⟩
  | cons byte bytes ih =>
      obtain ⟨text, plain⟩ := ih
      exact ⟨_, .cons List.mem_cons_self List.mem_cons_self plain⟩

section Data

variable {rowBytes rows : Nat} {data : Array UInt8} {hex : List Char}

/-- Plain data are unpacked to the bytes that they show. -/
theorem unpack_of_plainHex
    (rowBytesPos : 0 < rowBytes)
    (size : data.size = rowBytes * rows)
    (plain : PlainHex data.toList hex) :
    unpack hex rowBytes rows = .ok data := by
  obtain ⟨bitmap, joined, count, rectangular, written⟩ :=
    plain.exists_rows (by rw [Array.length_toList, size]) (List.replicate (2 * rowBytes) 0)
  have start : Unpacking.Between (2 * rowBytes) (List.replicate (2 * rowBytes) 0) #[] .empty :=
    Or.inr ⟨rfl, rfl⟩
  obtain ⟨after, read, closed, packed⟩ :=
    Unpacking.run_rowsText written start [] rowBytesPos (by simp) rectangular rfl
  have bytes : after.packed = data := by
    apply Array.toList_inj.mp
    rw [packed, joined, Array.toList_appendList, List.nil_append]
  rw [Array.size_empty, Nat.zero_add, count, List.append_nil] at read
  rw [unpack, read]
  dsimp only
  rw [Unpacking.finish, closed, List.isEmpty_nil, if_pos rfl, bytes, resize_of_size size]

/-! ## Parameters of a bitmap -/

/-- The parameters of a command for a bitmap with plain data. -/
def plainParams (rowBytes rows : Nat) (hex : List Char) : List Char :=
  ['A'] ++ ',' :: (Nat.toDigits 10 (rowBytes * rows) ++ ',' ::
    (Nat.toDigits 10 (rowBytes * rows) ++ ',' :: (Nat.toDigits 10 rowBytes ++ ',' :: hex)))

theorem splitComma_append {front : List Char} (noComma : ',' ∉ front) (behind : List Char) :
    splitComma (front ++ ',' :: behind) = (front, some behind) := by
  have taken : ∀ character ∈ front, decide (character ≠ ',') = true := by
    intro character member
    rw [decide_eq_true_eq]
    rintro rfl
    exact noComma member
  rw [splitComma, List.dropWhile_append_of_pos taken, List.takeWhile_append_of_pos taken]
  simp

theorem ofParams_plainParams :
    Parts.ofParams (plainParams rowBytes rows hex) =
      ⟨['A'], Nat.toDigits 10 (rowBytes * rows), Nat.toDigits 10 rowBytes, hex⟩ := by
  simp only [Parts.ofParams, plainParams, splitComma_append (show ',' ∉ ['A'] by decide),
    splitComma_append (not_mem_toDigits (show isDecimalDigit ',' = false by decide) _),
    Option.getD_some]

theorem count_toDigits (what : String) {number : Nat} (fits : number ≤ 0xFFFFFFFFFFFFFFFF) :
    count what (Nat.toDigits 10 number) = .ok number := by
  rw [count, trim_toDigits, natural?_toDigits]
  exact if_pos fits

/-- The mark of a base64 encoding begins with a colon. -/
theorem colon_mem_of_isBase64 {data : List Char} (base64 : isBase64 data = true) : ':' ∈ data := by
  have marked : ':' ∈ ((trimStart data).take 5).map Char.toUpper := by
    rw [isBase64, Bool.or_eq_true, decide_eq_true_eq, decide_eq_true_eq] at base64
    rcases base64 with same | same <;> rw [same] <;> decide
  obtain ⟨character, taken, upper⟩ := List.mem_map.mp marked
  have member : character ∈ data := (List.dropWhile_suffix _).subset (List.mem_of_mem_take taken)
  have code : character.toUpper.toNat = 58 := congrArg Char.toNat upper
  rcases toUpper_cases character with same | ⟨atLeast, -, distance⟩
  · rw [← upper, same]
    exact member
  · omega

/-- A bitmap with plain data is read from its parameters, if it is not larger than supported. -/
theorem ofParams_of_plainHex
    (rowBytesPos : 0 < rowBytes)
    (rowsPos : 0 < rows)
    (fits : rowBytes * rows ≤ maxBytes)
    (size : data.size = rowBytes * rows)
    (plain : PlainHex data.toList hex) :
    ofParams (plainParams rowBytes rows hex) = .ok (.bitmap rowBytes rows data) := by
  have limit : maxBytes = 16777216 := rfl
  have rowFits : rowBytes ≤ rowBytes * rows := Nat.le_mul_of_pos_right rowBytes rowsPos
  have noBase64 : isBase64 hex = false := by
    rw [← Bool.not_eq_true]
    intro base64
    exact plain.not_mem (by decide) (colon_mem_of_isBase64 base64)
  have rounded : (rowBytes * rows + rowBytes - 1) / rowBytes = rows := by
    rw [Nat.add_sub_assoc rowBytesPos, Nat.mul_add_div rowBytesPos, Nat.div_eq_of_lt (by omega),
      Nat.add_zero]
  have notEmpty : ¬ (rowBytes = 0 ∨ rowBytes * rows = 0) := by omega
  rw [ofParams, ofParams_plainParams]
  dsimp only
  rw [count_toDigits _ (by omega), count_toDigits _ (by omega)]
  simp only [bind, Except.bind]
  rw [noBase64, if_neg (by decide), if_neg Bool.false_ne_true, if_neg notEmpty,
    if_neg (by omega), if_neg (by omega), rounded, unpack_of_plainHex rowBytesPos size plain]
  rfl

end Data

end Graphic

/-! ## The markup of a bitmap -/

/-- The markup of a label with one bitmap at a place, with plain data. -/
def bitmapText (x y : Int) (rowBytes rows : Nat) (hex : List Char) : List Char :=
  ("^XA^FO" ++ toString x ++ "," ++ toString y ++ "^GFA," ++ toString (rowBytes * rows) ++ "," ++
    toString (rowBytes * rows) ++ "," ++ toString rowBytes ++ ",").toList ++ hex ++
      "^FS^XZ".toList

/-- The command that puts a field at a place. -/
def originToken (x y : Int) : Token :=
  ⟨.caret, ['F', 'O'], (toString x).toList ++ ',' :: (toString y).toList⟩

/-- The command that makes a field print a bitmap with plain data. -/
def bitmapToken (rowBytes rows : Nat) (hex : List Char) : Token :=
  ⟨.caret, ['G', 'F'], Graphic.plainParams rowBytes rows hex⟩

/-- The element of a bitmap at a place. -/
def bitmapElement (x y : Int) (rowBytes rows : Nat) (data : Array UInt8) : Element :=
  ⟨⟨x, y, .topLeft⟩, false, .bitmap rowBytes rows data⟩

section Markup

variable {x y : Int} {rowBytes rows : Nat} {data : Array UInt8} {hex : List Char}

theorem bitmapText_eq :
    bitmapText x y rowBytes rows hex =
      "^XA".toList ++ ("^FO".toList ++ (originToken x y).params ++
        ("^GF".toList ++ (bitmapToken rowBytes rows hex).params ++
          ("^FS".toList ++ "^XZ".toList))) := by
  simp [bitmapText, originToken, bitmapToken, Graphic.plainParams]

/-- Plain data and the numbers in front of them hold no dividers. -/
theorem undivided_bitmapToken (plain : Graphic.PlainHex data.toList hex) :
    ∀ divider ∈ Token.dividers, divider ∉ (bitmapToken rowBytes rows hex).params := by
  intro divider member
  have foreign : (divider ≠ 'A' ∧ divider ≠ ',') ∧
      isDecimalDigit divider = false ∧ hexDigit? divider = none := by
    simp only [Token.dividers, List.mem_cons, List.not_mem_nil, or_false] at member
    rcases member with rfl | rfl | rfl | rfl <;> decide
  obtain ⟨marks, noDecimal, noDigit⟩ := foreign
  simp [bitmapToken, Graphic.plainParams, marks, not_mem_toDigits noDecimal,
    plain.not_mem noDigit]

/-- The commands of the markup are taken one by one. -/
theorem scan_bitmapText (plain : Graphic.PlainHex data.toList hex) :
    (Token.scan (bitmapText x y rowBytes rows hex)).toList =
      [⟨.caret, ['X', 'A'], []⟩, originToken x y, bitmapToken rowBytes rows hex,
        ⟨.caret, ['F', 'S'], []⟩, ⟨.caret, ['X', 'Z'], []⟩] := by
  have opening : Token.Reads "^XA".toList [⟨.caret, ['X', 'A'], []⟩] [] :=
    Token.reads_command rfl (by simp) (by simp)
  have placing : Token.Reads ("^FO".toList ++ (originToken x y).params) [originToken x y] [] :=
    Token.reads_undivided rfl (Token.undivided_pair x y)
  have drawing : Token.Reads ("^GF".toList ++ (bitmapToken rowBytes rows hex).params)
      [bitmapToken rowBytes rows hex] [] :=
    Token.reads_undivided rfl (undivided_bitmapToken plain)
  have ending : Token.Reads "^FS".toList [⟨.caret, ['F', 'S'], []⟩] [] :=
    Token.reads_command rfl (by simp) (by simp)
  have closing : Token.Reads "^XZ".toList [⟨.caret, ['X', 'Z'], []⟩] [] :=
    Token.reads_command rfl (by simp) (by simp)
  have all := (opening.append_caret _).trans <| (placing.append_caret _).trans <|
    (drawing.append_caret _).trans <| (ending.append_caret _).trans closing
  have tokens := all.scan_eq
  rw [Token.scan_nil] at tokens
  rw [bitmapText_eq]
  exact tokens

/-- The commands make one element: its place is counted from the upper left corner. -/
theorem run_bitmap
    (column : -maxDots ≤ x ∧ x ≤ maxDots)
    (row : -maxDots ≤ y ∧ y ≤ maxDots)
    (accepted : Graphic.ofParams (Graphic.plainParams rowBytes rows hex) =
      .ok (.bitmap rowBytes rows data)) :
    [originToken x y, bitmapToken rowBytes rows hex, ⟨.caret, ['F', 'S'], []⟩].foldlM
        LabelState.applyToken {} =
      .ok { label := { elements := #[bitmapElement x y rowBytes rows data] } } := by
  have placed : Command.ofToken (originToken x y) = .ok (.origin x y .topLeft) := by
    show Command.readOrigin
      ⟨['F', 'O'], ((toString x).toList ++ ',' :: (toString y).toList).splitOn ','⟩ _ = _
    rw [Parameters.fields_of_pair, Command.readOrigin,
      Parameters.signed_toString rfl column.1 column.2, Parameters.signed_toString rfl row.1 row.2]
    rfl
  have origin : LabelState.applyToken {} (originToken x y) =
      .ok { field := { origin := some ⟨x, y, .topLeft⟩ } } := by
    rw [LabelState.applyToken, placed]
    show Except.ok (LabelState.mk _ _ { origin := some ⟨0 + x, 0 + y, .topLeft⟩ }) = _
    rw [Int.zero_add, Int.zero_add]
  have drawn : Command.ofToken (bitmapToken rowBytes rows hex) =
      .ok (.request (.graphic (.bitmap rowBytes rows data))) := by
    show (Command.readBitmap (Graphic.plainParams rowBytes rows hex)).map _ = _
    rw [Command.readBitmap, accepted]
    rfl
  have requested : LabelState.applyToken { field := { origin := some ⟨x, y, .topLeft⟩ } }
      (bitmapToken rowBytes rows hex) =
        .ok { field :=
          { origin := some ⟨x, y, .topLeft⟩
            printing := some (.graphic (.bitmap rowBytes rows data)) } } := by
    rw [LabelState.applyToken, drawn]
    rfl
  rw [foldlM_cons_of_ok _ origin, foldlM_cons_of_ok _ requested]
  rfl

theorem readText_bitmapText
    (column : -maxDots ≤ x ∧ x ≤ maxDots)
    (row : -maxDots ≤ y ∧ y ≤ maxDots)
    (plain : Graphic.PlainHex data.toList hex)
    (accepted : Graphic.ofParams (Graphic.plainParams rowBytes rows hex) =
      .ok (.bitmap rowBytes rows data)) :
    readText (bitmapText x y rowBytes rows hex) =
      .ok [{ elements := #[bitmapElement x y rowBytes rows data] }] := by
  rw [readText, scan_bitmapText plain]
  refine readTokens_label ?_ (run_bitmap column row accepted)
  simp [Token.opensLabel, Token.closesLabel, originToken, bitmapToken]

end Markup

/-! ## The dots of a bitmap -/

section Dots

open Drawing

variable (x y : Int) (rowBytes rows : Nat) (data : Array UInt8)

/--
Whether a dot lies on a bitmap that stands at a place, and its bit is set: every byte of a row has
eight columns, and its most significant bit is the leftmost of them.
-/
def isBitSet (column row : Nat) : Bool :=
  (0 ≤ column - x ∧ column - x < 8 * rowBytes) ∧ (0 ≤ row - y ∧ row - y < rows) ∧
    (data.getD ((row - y).toNat * rowBytes + (column - x).toNat / 8) 0).toNat.testBit
      (7 - (column - x).toNat % 8) = true

/-- A bitmap covers the dots whose bits are set. -/
theorem coversDot_bitmapElement (font : Option Font) (dotsPerMm : Int) (column row : Nat) :
    coversDot font dotsPerMm column row (bitmapElement x y rowBytes rows data) =
      isBitSet x y rowBytes rows data column row := by
  have covered := @Mask.covers_ofInk_iff (8 * rowBytes) rows (Shapes.bitmapInk rowBytes data)
    x y column row
  rw [Int.natCast_mul] at covered
  rw [Bool.eq_iff_iff, isBitSet, decide_eq_true_eq, and_assoc, and_assoc]
  exact covered

/-- A label of one bitmap is drawn if it has a canvas; its black dots are those of the bitmap. -/
theorem exists_draw_bitmapElement
    {fonts : FontSource Id}
    {label : Label}
    {options : DrawOptions}
    (upright : label.inverted = false)
    (only : label.elements = #[bitmapElement x y rowBytes rows data])
    (noFault : ((densityFault? options).or (sizeFault? label options)).or
      (fontFault? fonts options) = none) :
    ∃ canvas, Id.run (draw fonts label options) = .ok canvas ∧
      ∀ column row, column < canvas.width → row < canvas.height →
        canvas.cell? column row =
          some (if isBitSet x y rowBytes rows data column row then black else white) := by
  have noElementFault : elementFault? label = none := by
    rw [elementFault?, only]
    rfl
  rcases draw_cases fonts label options with
    ⟨fault, found, -⟩ | ⟨-, canvas, drawn, -, -, dots⟩
  · rw [firstFault?, noFault, noElementFault] at found
    cases found
  · refine ⟨canvas, drawn, ?_⟩
    intro column row columnLt rowLt
    have painted := dotAfter_eq (fontFor? fonts options) options.dotsPerMm column row white
      (bitmapElement x y rowBytes rows data)
    rw [coversDot_bitmapElement] at painted
    rw [dots column row columnLt rowLt, upright, only]
    exact congrArg some painted

end Dots

/--
A bitmap is printed bit for bit.  Every bitmap that is not larger than supported can be written
plainly, and the markup that puts it at a place is read as one label with this bitmap as its only
element.  On every canvas that this label has, also if it has sides of its own, the black dots are
those whose bits are set.  Any part of the bitmap may lie outside the canvas.
-/
theorem bitmapText_prints
    {x y : Int}
    {rowBytes rows : Nat}
    {data : Array UInt8}
    (columnFits : -maxDots ≤ x ∧ x ≤ maxDots)
    (rowFits : -maxDots ≤ y ∧ y ≤ maxDots)
    (rowBytesPos : 0 < rowBytes)
    (rowsPos : 0 < rows)
    (fits : rowBytes * rows ≤ Graphic.maxBytes)
    (size : data.size = rowBytes * rows) :
    (∃ hex, Graphic.PlainHex data.toList hex) ∧
      (∀ hex, Graphic.PlainHex data.toList hex →
        readText (bitmapText x y rowBytes rows hex) =
          .ok [{ elements := #[bitmapElement x y rowBytes rows data] }]) ∧
      ∀ printWidth length fonts options,
        let label : Label :=
          { printWidth, length, elements := #[bitmapElement x y rowBytes rows data] }
        ((Drawing.densityFault? options).or (Drawing.sizeFault? label options)).or
            (Drawing.fontFault? fonts options) = none →
          ∃ canvas, Id.run (Drawing.draw fonts label options) = .ok canvas ∧
            ∀ column row, column < canvas.width → row < canvas.height →
              canvas.cell? column row =
                some (if isBitSet x y rowBytes rows data column row then black else white) := by
  refine ⟨Graphic.exists_plainHex data.toList, ?_, ?_⟩
  · intro hex plain
    have accepted := Graphic.ofParams_of_plainHex rowBytesPos rowsPos fits size plain
    exact readText_bitmapText columnFits rowFits plain accepted
  · intro printWidth length fonts options label noFault
    exact exists_draw_bitmapElement x y rowBytes rows data rfl rfl noFault

/-- A bitmap of one byte and two rows, of which three columns lie outside the canvas. -/
theorem bitmapText_prints_two_rows :
    let data : Array UInt8 := #[0x9C, 0x0F]
    let element := bitmapElement (-3) 1 1 2 data
    let label : Label := { printWidth := some 4, length := some 3, elements := #[element] }
    let fonts : FontSource Id := { isFile := fun _ => pure false, load := fun _ => pure (.ok []) }
    (-maxDots ≤ (-3 : Int) ∧ (-3 : Int) ≤ maxDots) ∧ (-maxDots ≤ (1 : Int) ∧ (1 : Int) ≤ maxDots) ∧
      1 * 2 ≤ Graphic.maxBytes ∧ data.size = 1 * 2 ∧
      bitmapText (-3) 1 1 2 "9c0F".toList = "^XA^FO-3,1^GFA,2,2,1,9c0F^FS^XZ".toList ∧
      readText (bitmapText (-3) 1 1 2 "9c0F".toList) = .ok [{ elements := #[element] }] ∧
      ∃ canvas, Id.run (Drawing.draw fonts label { dotsPerMm := 8 }) = .ok canvas ∧
        ∀ column row, column < canvas.width → row < canvas.height →
          canvas.cell? column row =
            some (if isBitSet (-3) 1 1 2 data column row then black else white) := by
  intro data element label fonts
  have columnFits : -maxDots ≤ (-3 : Int) ∧ (-3 : Int) ≤ maxDots := by decide
  have rowFits : -maxDots ≤ (1 : Int) ∧ (1 : Int) ≤ maxDots := by decide
  have fits : 1 * 2 ≤ Graphic.maxBytes := by decide
  have plain : Graphic.PlainHex data.toList "9c0F".toList :=
    .cons (by decide) (by decide) (.cons (by decide) (by decide) .nil)
  obtain ⟨-, reads, prints⟩ :=
    bitmapText_prints columnFits rowFits (by decide) (by decide) fits (rfl : data.size = 1 * 2)
  refine ⟨columnFits, rowFits, fits, rfl, by with_unfolding_all rfl, reads _ plain, ?_⟩
  exact prints (some 4) (some 3) fonts { dotsPerMm := 8 } (by with_unfolding_all rfl)

end LabelPress.Markup
