import LabelPress.Markup.Token

/-!
# Scanning a text piece by piece

`Reads text tokens behind` says that scanning `text` from its front yields `tokens` and then goes
on with `behind` as with a text of its own.  Skipped characters, damaged commands and complete
commands are its steps; an opening character with nothing behind it is none, so that every text is
read either to its end or to a lone opening character (`exists_reads`).

Two facts make it an interface to scanning.  The tokens of a text are those that are read and those
of what is left (`Reads.scan_eq`), and a piece that was read is read alike in front of a caret
(`Reads.append_caret`).
-/

namespace LabelPress.Markup

namespace Lead

theorem eq_toChar_of_ofChar? {character : Char} {lead : Lead}
    (found : ofChar? character = some lead) :
    character = lead.toChar := by
  unfold ofChar? at found
  split at found
  · rename_i isCaret
    cases found
    exact isCaret
  · split at found
    · rename_i isTilde
      cases found
      exact isTilde
    · cases found

@[simp]
theorem toUpper_toChar (lead : Lead) : lead.toChar.toUpper = lead.toChar := by
  cases lead <;> rfl

end Lead

@[simp]
theorem opensCommand_toChar (lead : Lead) : opensCommand lead.toChar = true := by
  cases lead <;> rfl

theorem opensCommand_iff {character : Char} :
    opensCommand character = true ↔ ∃ lead : Lead, character = lead.toChar := by
  constructor
  · intro opens
    unfold opensCommand at opens
    rcases Bool.or_eq_true_iff.mp opens with isCaret | isTilde
    · exact ⟨.caret, of_decide_eq_true isCaret⟩
    · exact ⟨.tilde, of_decide_eq_true isTilde⟩
  · rintro ⟨lead, rfl⟩
    exact opensCommand_toChar lead

theorem Lead.ofChar?_of_plain
    {character : Char}
    (plain : opensCommand character = false) :
    Lead.ofChar? character = none := by
  cases found : Lead.ofChar? character with
  | none =>
      rfl
  | some lead =>
      rw [Lead.eq_toChar_of_ofChar? found, opensCommand_toChar] at plain
      cases plain

/-- Upper case leaves a character alone, or takes a letter from `a` to `z` down by 32. -/
theorem toUpper_cases (character : Char) :
    character.toUpper = character ∨
      97 ≤ character.toNat ∧ character.toNat ≤ 122 ∧
        character.toUpper.toNat + 32 = character.toNat := by
  unfold Char.toUpper
  split
  · rename_i lower
    have atLeast : 97 ≤ character.val.toNat := lower.1
    have atMost : character.val.toNat ≤ 122 := lower.2
    have distance : ('A'.val - 'a'.val).toNat = 2 ^ 32 - 32 := rfl
    refine Or.inr ⟨atLeast, atMost, ?_⟩
    simp only [Char.toNat, UInt32.toNat_add, distance]
    omega
  · exact Or.inl rfl

theorem opensCommand_iff_toNat {character : Char} :
    opensCommand character = true ↔ character.toNat = 94 ∨ character.toNat = 126 := by
  simp only [opensCommand, Bool.or_eq_true, decide_eq_true_eq, ← Char.toNat_inj]
  rfl

/-- Upper case neither makes nor hides an opening character. -/
@[simp]
theorem opensCommand_toUpper (character : Char) :
    opensCommand character.toUpper = opensCommand character := by
  rw [Bool.eq_iff_iff, opensCommand_iff_toNat, opensCommand_iff_toNat]
  rcases toUpper_cases character with same | ⟨atLeast, atMost, distance⟩
  · rw [same]
  · omega

namespace Token

/-! ## One step of scanning -/

theorem scanFrom_cons_text (found : Array Token) {character : Char} {rest : List Char}
    (skipped : Lead.ofChar? character = none) :
    scanFrom found (character :: rest) = scanFrom found rest := by
  rw [scanFrom]
  split
  · rfl
  · rename_i opened
    rw [skipped] at opened
    cases opened

theorem scanFrom_cons_damaged (found : Array Token) {lead : Lead} {rest : List Char}
    (cutOff : code? lead rest = none) :
    scanFrom found (lead.toChar :: rest) = scanFrom found rest.tail := by
  rw [scanFrom]
  split
  · rename_i skipped
    rw [Lead.ofChar?_toChar] at skipped
    cases skipped
  · rename_i opened
    rw [Lead.ofChar?_toChar] at opened
    cases opened
    split
    · rfl
    · rename_i complete
      rw [cutOff] at complete
      cases complete

theorem scanFrom_cons_command (found : Array Token) {lead : Lead}
    {rest code text : List Char} (complete : code? lead rest = some (code, text)) :
    scanFrom found (lead.toChar :: rest) =
      scanFrom (found.push (ofFront lead code text)) (afterParams code text) := by
  rw [scanFrom]
  split
  · rename_i skipped
    rw [Lead.ofChar?_toChar] at skipped
    cases skipped
  · rename_i opened
    rw [Lead.ofChar?_toChar] at opened
    cases opened
    split
    · rename_i cutOff
      rw [cutOff] at complete
      cases complete
    · rename_i completeAgain
      rw [completeAgain] at complete
      cases complete
      rfl

/-- Tokens that were found before stand in front of those that are found later. -/
theorem scanFrom_append (before found : Array Token) (text : List Char) :
    scanFrom (before ++ found) text = before ++ scanFrom found text := by
  fun_induction scanFrom found text with
  | case1 found =>
      rw [scanFrom]
  | case2 found character rest skipped ih =>
      rw [scanFrom_cons_text _ skipped, ih]
  | case3 found character rest lead opened cutOff ih =>
      obtain rfl := Lead.eq_toChar_of_ofChar? opened
      rw [scanFrom_cons_damaged _ cutOff, ih]
  | case4 found character rest lead opened code text complete ih =>
      obtain rfl := Lead.eq_toChar_of_ofChar? opened
      rw [scanFrom_cons_command _ complete, Array.push_append, ih]

@[simp]
theorem scan_nil : scan [] = #[] := by
  rw [scan, scanFrom]

/-- A character that opens no command is skipped. -/
theorem scan_cons_text {character : Char} {rest : List Char}
    (skipped : Lead.ofChar? character = none) :
    scan (character :: rest) = scan rest :=
  scanFrom_cons_text #[] skipped

/-- A command whose code is cut off is skipped with the character behind its opening. -/
theorem scan_cons_damaged {lead : Lead} {rest : List Char}
    (cutOff : code? lead rest = none) :
    scan (lead.toChar :: rest) = scan rest.tail :=
  scanFrom_cons_damaged #[] cutOff

/-- A command yields its token, and scanning goes on behind its parameters. -/
theorem scan_cons_command {lead : Lead} {rest code text : List Char}
    (complete : code? lead rest = some (code, text)) :
    scan (lead.toChar :: rest) =
      #[ofFront lead code text] ++ scan (afterParams code text) := by
  rw [scan, scanFrom_cons_command _ complete]
  exact scanFrom_append #[ofFront lead code text] #[] _

/-! ## Codes and parameters -/

theorem code?_font {lead : Lead} {first : Char} (text : List Char)
    (isFont : lead = .caret ∧ first.toUpper = 'A') :
    code? lead (first :: text) = some (['A'], text) := by
  unfold code?
  exact if_pos isFont

theorem code?_single {lead : Lead} {first : Char}
    (notFont : ¬ (lead = .caret ∧ first.toUpper = 'A')) :
    code? lead [first] = none := by
  unfold code?
  exact if_neg notFont

theorem code?_pair {lead : Lead} {first : Char} (second : Char) (text : List Char)
    (notFont : ¬ (lead = .caret ∧ first.toUpper = 'A')) :
    code? lead (first :: second :: text) =
      if opensCommand second then none
      else some ([first.toUpper, second.toUpper], text) := by
  rw [← opensCommand_toUpper second]
  unfold code?
  exact if_neg notFont

/-- A complete code is the letter of the font command, or two characters of which the second opens
no command. -/
theorem code?_eq_some_iff {lead : Lead} {front code text : List Char} :
    code? lead front = some (code, text) ↔
      (∃ first, (lead = .caret ∧ first.toUpper = 'A') ∧
          front = first :: text ∧ code = ['A']) ∨
        ∃ first second, ¬ (lead = .caret ∧ first.toUpper = 'A') ∧
          opensCommand second = false ∧ front = first :: second :: text ∧
            code = [first.toUpper, second.toUpper] := by
  constructor
  · intro complete
    cases front with
    | nil => cases complete
    | cons first rest =>
        by_cases isFont : lead = .caret ∧ first.toUpper = 'A'
        · rw [code?_font rest isFont] at complete
          cases complete
          exact Or.inl ⟨first, isFont, rfl, rfl⟩
        · cases rest with
          | nil =>
              rw [code?_single isFont] at complete
              cases complete
          | cons second rest =>
              rw [code?_pair second rest isFont] at complete
              split at complete
              · cases complete
              · rename_i plain
                cases complete
                exact Or.inr
                  ⟨first, second, isFont, Bool.eq_false_iff.mpr plain, rfl, rfl⟩
  · rintro (⟨first, isFont, rfl, rfl⟩ | ⟨first, second, notFont, plain, rfl, rfl⟩)
    · exact code?_font text isFont
    · rw [code?_pair second text notFont, plain]
      rfl

/-- A caret behind at least one character changes nothing in the code before it. -/
theorem code?_append_caret (lead : Lead) (first : Char) (rest behind : List Char) :
    code? lead (first :: (rest ++ '^' :: behind)) =
      (code? lead (first :: rest)).map fun found => (found.1, found.2 ++ '^' :: behind) := by
  by_cases isFont : lead = .caret ∧ first.toUpper = 'A'
  · rw [code?_font _ isFont, code?_font _ isFont]
    rfl
  · cases rest with
    | nil =>
        rw [List.nil_append, code?_pair _ _ isFont, code?_single isFont]
        rfl
    | cons second rest =>
        rw [List.cons_append, code?_pair _ _ isFont, code?_pair _ _ isFont]
        split <;> rfl

@[simp]
theorem endsParams_caret (code : List Char) : endsParams code '^' = true := by
  simp [endsParams]

/-- Parameters end at the first character that ends them, whatever stands behind it. -/
theorem ofFront_append_stop (lead : Lead) {code : List Char} {stop : Char}
    (stops : endsParams code stop = true) (text behind : List Char) :
    ofFront lead code (text ++ stop :: behind) = ofFront lead code text := by
  have same : (text ++ stop :: behind).takeWhile (!endsParams code ·) =
      text.takeWhile (!endsParams code ·) := by
    induction text with
    | nil =>
        simp [stops]
    | cons character text ih =>
        simp only [List.cons_append, List.takeWhile_cons, ih]
  rw [ofFront, same, ofFront]

theorem afterParams_append_stop {code : List Char} {stop : Char}
    (stops : endsParams code stop = true) (text behind : List Char) :
    afterParams code (text ++ stop :: behind) =
      afterParams code text ++ stop :: behind := by
  unfold afterParams
  induction text with
  | nil =>
      simp [stops]
  | cons character text ih =>
      simp only [List.cons_append, List.dropWhile_cons, ih]
      split <;> rfl

/-! ## Reading a piece of a text -/

/--
Scanning `text` from its front yields `tokens` and goes on with what is left.  A lone opening
character at the end of a text is left.
-/
inductive Reads : List Char → List Token → List Char → Prop where
  | here {text : List Char} : Reads text [] text
  | text {character : Char} {rest left : List Char} {tokens : List Token}
      (skipped : Lead.ofChar? character = none)
      (later : Reads rest tokens left) :
      Reads (character :: rest) tokens left
  | damaged {lead : Lead} {first : Char} {rest left : List Char} {tokens : List Token}
      (cutOff : code? lead (first :: rest) = none)
      (later : Reads rest tokens left) :
      Reads (lead.toChar :: first :: rest) tokens left
  | command {lead : Lead} {rest code text left : List Char} {tokens : List Token}
      (complete : code? lead rest = some (code, text))
      (later : Reads (afterParams code text) tokens left) :
      Reads (lead.toChar :: rest) (ofFront lead code text :: tokens) left

namespace Reads

/-- The tokens of a text are those that are read and those of what is left. -/
theorem scan_eq {text left : List Char} {tokens : List Token}
    (reads : Reads text tokens left) :
    (scan text).toList = tokens ++ (scan left).toList := by
  induction reads with
  | here =>
      rfl
  | text skipped later ih =>
      rw [scan_cons_text skipped, ih]
  | damaged cutOff later ih =>
      rw [scan_cons_damaged cutOff, List.tail_cons, ih]
  | command complete later ih =>
      rw [scan_cons_command complete]
      simp [ih]

/-- What is left is the end of the text. -/
theorem suffix {text left : List Char} {tokens : List Token}
    (reads : Reads text tokens left) : left <:+ text := by
  induction reads with
  | here =>
      exact List.suffix_rfl
  | text skipped later ih =>
      exact ih.trans (List.suffix_cons _ _)
  | damaged cutOff later ih =>
      exact (ih.trans (List.suffix_cons _ _)).trans (List.suffix_cons _ _)
  | @command lead rest code text left tokens complete later ih =>
      have params : afterParams code text <:+ text := List.dropWhile_suffix _
      have behindCode : text <:+ rest := by
        rcases code?_eq_some_iff.mp complete with
          ⟨first, -, rfl, -⟩ | ⟨first, second, -, -, rfl, -⟩
        · exact List.suffix_cons _ _
        · exact (List.suffix_cons _ _).trans (List.suffix_cons _ _)
      exact ((ih.trans params).trans behindCode).trans (List.suffix_cons _ _)

/-- What is read in front of another piece is read first. -/
theorem trans {text middle left : List Char} {front behind : List Token}
    (first : Reads text front middle) (second : Reads middle behind left) :
    Reads text (front ++ behind) left := by
  induction first with
  | here =>
      exact second
  | text skipped later ih =>
      exact .text skipped (ih second)
  | damaged cutOff later ih =>
      exact .damaged cutOff (ih second)
  | command complete later ih =>
      exact .command complete (ih second)

/-- A piece is read alike if a caret stands behind the text. -/
theorem append_caret {text left : List Char} {tokens : List Token}
    (reads : Reads text tokens left) (behind : List Char) :
    Reads (text ++ '^' :: behind) tokens (left ++ '^' :: behind) := by
  induction reads with
  | here =>
      exact .here
  | text skipped later ih =>
      exact .text skipped ih
  | @damaged lead first rest left tokens cutOff later ih =>
      have stillCutOff : code? lead (first :: (rest ++ '^' :: behind)) = none := by
        rw [code?_append_caret, cutOff]
        rfl
      exact .damaged stillCutOff ih
  | @command lead rest code text left tokens complete later ih =>
      cases rest with
      | nil =>
          cases complete
      | cons first rest =>
          rw [← ofFront_append_stop lead (endsParams_caret code) text behind]
          have stillComplete : code? lead (first :: (rest ++ '^' :: behind)) =
              some (code, text ++ '^' :: behind) := by
            rw [code?_append_caret, complete]
            rfl
          refine .command stillComplete ?_
          rw [afterParams_append_stop (endsParams_caret code)]
          exact ih

/-- Parameters are taken whole if nothing in them ends them, and what stands behind them does. -/
theorem front
    {lead : Lead}
    {rest code params behind left : List Char}
    {tokens : List Token}
    (complete : code? lead rest = some (code, params ++ behind))
    (inside : ∀ character ∈ params, endsParams code character = false)
    (stops : ∀ character later, behind = character :: later → endsParams code character = true)
    (later : Reads behind tokens left) :
    Reads (lead.toChar :: rest)
      (⟨lead, code, params.filter (!isLineBreak ·)⟩ :: tokens) left := by
  have taken : ∀ character ∈ params, (!endsParams code character) = true := by
    intro character member
    rw [inside character member]
    rfl
  have ends : behind.takeWhile (!endsParams code ·) = [] ∧
      behind.dropWhile (!endsParams code ·) = behind := by
    cases behind with
    | nil =>
        exact ⟨rfl, rfl⟩
    | cons character behind =>
        have stop := stops character behind rfl
        exact ⟨List.takeWhile_cons_of_neg (by simp [stop]),
          List.dropWhile_cons_of_neg (by simp [stop])⟩
  have token : ofFront lead code (params ++ behind) =
      ⟨lead, code, params.filter (!isLineBreak ·)⟩ := by
    rw [ofFront, List.takeWhile_append_of_pos taken, ends.1, List.append_nil]
  have behindParams : afterParams code (params ++ behind) = behind := by
    rw [afterParams, List.dropWhile_append_of_pos taken, ends.2]
  rw [← token]
  apply Reads.command complete
  rw [behindParams]
  exact later

end Reads

/-- Every text is read to its end, or to a lone opening character there. -/
theorem exists_reads (text : List Char) :
    ∃ tokens, Reads text tokens [] ∨ ∃ lead : Lead, Reads text tokens [lead.toChar] := by
  -- The induction follows scanning itself; the tokens found before play no part.
  induction (#[] : Array Token), text using scanFrom.induct with
  | case1 found =>
      exact ⟨[], Or.inl .here⟩
  | case2 found character rest skipped ih =>
      rcases ih with ⟨tokens, toEnd | ⟨lead, toLead⟩⟩
      · exact ⟨tokens, Or.inl (.text skipped toEnd)⟩
      · exact ⟨tokens, Or.inr ⟨lead, .text skipped toLead⟩⟩
  | case3 found character rest opening opened cutOff ih =>
      obtain rfl := Lead.eq_toChar_of_ofChar? opened
      cases rest with
      | nil =>
          exact ⟨[], Or.inr ⟨opening, .here⟩⟩
      | cons first rest =>
          rcases ih with ⟨tokens, toEnd | ⟨lead, toLead⟩⟩
          · exact ⟨tokens, Or.inl (.damaged cutOff toEnd)⟩
          · exact ⟨tokens, Or.inr ⟨lead, .damaged cutOff toLead⟩⟩
  | case4 found character rest opening opened code text complete ih =>
      obtain rfl := Lead.eq_toChar_of_ofChar? opened
      rcases ih with ⟨tokens, toEnd | ⟨lead, toLead⟩⟩
      · exact ⟨_, Or.inl (.command complete toEnd)⟩
      · exact ⟨_, Or.inr ⟨lead, .command complete toLead⟩⟩

/-- A token is found exactly where reading comes to a command with a complete code. -/
theorem mem_scan_iff {token : Token} {text : List Char} :
    token ∈ (scan text).toList ↔
      ∃ tokens lead rest code params, Reads text tokens (lead.toChar :: rest) ∧
        code? lead rest = some (code, params) ∧ token = ofFront lead code params := by
  constructor
  · intro member
    induction (#[] : Array Token), text using scanFrom.induct with
    | case1 found =>
        rw [scan_nil] at member
        cases member
    | case2 found character rest skipped ih =>
        rw [scan_cons_text skipped] at member
        rcases ih member with ⟨tokens, lead, command, code, params, reads, found⟩
        exact ⟨tokens, lead, command, code, params, .text skipped reads, found⟩
    | case3 found character rest opening opened cutOff ih =>
        obtain rfl := Lead.eq_toChar_of_ofChar? opened
        rw [scan_cons_damaged cutOff] at member
        cases rest with
        | nil =>
            rw [List.tail_nil, scan_nil] at member
            cases member
        | cons first rest =>
            rcases ih member with ⟨tokens, lead, command, code, params, reads, found⟩
            exact ⟨tokens, lead, command, code, params, .damaged cutOff reads, found⟩
    | case4 found character rest opening opened code text complete ih =>
        obtain rfl := Lead.eq_toChar_of_ofChar? opened
        rw [scan_cons_command complete] at member
        rw [Array.toList_append, List.singleton_append] at member
        rcases List.mem_cons.mp member with rfl | member
        · exact ⟨[], opening, rest, code, text, .here, complete, rfl⟩
        · obtain ⟨tokens, lead, command, code', params, reads, found⟩ := ih member
          exact ⟨_, lead, command, code', params, .command complete reads, found⟩
  · rintro ⟨tokens, lead, rest, code, params, reads, complete, rfl⟩
    rw [reads.scan_eq, scan_cons_command complete]
    simp

end Token

end LabelPress.Markup
