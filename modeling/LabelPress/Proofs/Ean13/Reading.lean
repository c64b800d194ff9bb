import LabelPress.Proofs.Ean13.Codes
import LabelPress.Proofs.Symbology.Patterns

/-!
# Reading EAN-13 symbols

A symbol has bars at its ends and in its middle, and on either side of the middle six characters of
seven modules each.  A character is printed from one of three number sets; the sets on the left
side tell the first digit, which has no character of its own.  The tables below are those of the
standard, which gives a character by the widths of its four elements.

A reader looks every character up (`read?`).  It finds a code exactly where the modules show that
code (`read?_eq_some_iff`), since no two characters are alike (`pattern_injective`) and no two
first digits have the same sets (`setsOfFirst_injective`).  The main statement (`read?_symbol`) is
that the symbol of a code is read as that code, and as no other.
-/

namespace LabelPress.Ean13

open LabelPress.Text

/-! ## The tables of the standard -/

/-- A set from which characters are printed: A and B on the left side, C on the right. -/
inductive NumberSet where
  | a
  | b
  | c
  deriving DecidableEq, Repr

/-- The widths of the four elements of a digit, in modules. -/
def elementWidths : Nat → List Nat
  | 0 => [3, 2, 1, 1]
  | 1 => [2, 2, 2, 1]
  | 2 => [2, 1, 2, 2]
  | 3 => [1, 4, 1, 1]
  | 4 => [1, 1, 3, 2]
  | 5 => [1, 2, 3, 1]
  | 6 => [1, 1, 1, 4]
  | 7 => [1, 3, 1, 2]
  | 8 => [1, 2, 1, 3]
  | _ => [3, 1, 1, 2]

/-- The modules of elements, bars and spaces in turns. -/
def elements (bar : Bool) : List Nat → List Bool
  | [] => []
  | width :: widths => List.replicate width bar ++ elements (!bar) widths

/-- A digit printed from a number set. -/
structure Character where
  set : NumberSet
  digit : Nat
  deriving DecidableEq, Repr

/--
The modules of a character.  Left characters begin with a space, right ones with a bar; set B has
the elements in the opposite order.
-/
def Character.pattern (character : Character) : List Bool :=
  match character.set with
  | .a => elements false (elementWidths character.digit)
  | .b => elements false (elementWidths character.digit).reverse
  | .c => elements true (elementWidths character.digit)

/-- The sets of the six characters on the left side, by the first digit of the code. -/
def setsOfFirst : Nat → List NumberSet
  | 0 => [.a, .a, .a, .a, .a, .a]
  | 1 => [.a, .a, .b, .a, .b, .b]
  | 2 => [.a, .a, .b, .b, .a, .b]
  | 3 => [.a, .a, .b, .b, .b, .a]
  | 4 => [.a, .b, .a, .a, .b, .b]
  | 5 => [.a, .b, .b, .a, .a, .b]
  | 6 => [.a, .b, .b, .b, .a, .a]
  | 7 => [.a, .b, .a, .b, .a, .b]
  | 8 => [.a, .b, .a, .b, .b, .a]
  | _ => [.a, .b, .b, .a, .b, .a]

/-- The bars at either end. -/
def edge : List Bool := [true, false, true]

/-- The bars in the middle. -/
def middle : List Bool := [false, true, false, true, false]

/-- Modules that show a code: the first digit by the sets of the left side, the others printed. -/
def Shows (modules : List Bool) (code : List Nat) : Prop :=
  ∃ first left right,
    (∀ digit ∈ first :: (left ++ right), digit < 10) ∧ left.length = 6 ∧ right.length = 6 ∧
      code = first :: (left ++ right) ∧
      modules =
        edge ++ ((setsOfFirst first).zipWith Character.mk left).flatMap Character.pattern ++
          middle ++ (right.map (Character.mk .c)).flatMap Character.pattern ++ edge

/-! ## The reader -/

/-- All characters of some number sets. -/
def charactersOf (sets : List NumberSet) : List Character :=
  sets.flatMap fun set => (List.range 10).map fun digit => ⟨set, digit⟩

/-- The character with a pattern, if it is one of some number sets. -/
def character? (sets : List NumberSet) (pattern : List Bool) : Option Character :=
  (charactersOf sets).find? fun character => character.pattern = pattern

/-- Reads characters of some number sets, with what stands behind them. -/
def characters? (sets : List NumberSet) :
    (count : Nat) → List Bool → Option (List Character × List Bool)
  | 0, modules => some ([], modules)
  | count + 1, modules => do
    let character ← character? sets (modules.take 7)
    let (characters, behind) ← characters? sets count (modules.drop 7)
    return (character :: characters, behind)

/-- What stands behind given bars. -/
def behind? (bars modules : List Bool) : Option (List Bool) :=
  if bars.isPrefixOf modules then some (modules.drop bars.length) else none

/-- The first digit that goes with the sets of the left side. -/
def first? (sets : List NumberSet) : Option Nat :=
  (List.range 10).find? fun first => setsOfFirst first = sets

/-- The code that modules show. -/
def read? (modules : List Bool) : Option (List Nat) := do
  let modules ← behind? edge modules
  let (left, modules) ← characters? [.a, .b] 6 modules
  let modules ← behind? middle modules
  let (right, modules) ← characters? [.c] 6 modules
  if modules = edge then
    let first ← first? (left.map Character.set)
    return first :: (left.map Character.digit ++ right.map Character.digit)
  else none

/-! ## Looking up -/

theorem pattern_injective
    {first second : Character}
    (firstDigit : first.digit < 10)
    (secondDigit : second.digit < 10)
    (same : first.pattern = second.pattern) :
    first = second := by
  have all : ∀ first < 10, ∀ second < 10, ∀ set ∈ [NumberSet.a, .b, .c],
      ∀ other ∈ [NumberSet.a, .b, .c],
        (Character.mk set first).pattern = (Character.mk other second).pattern →
          (⟨set, first⟩ : Character) = ⟨other, second⟩ := by
    decide
  have everySet : ∀ set : NumberSet, set ∈ [NumberSet.a, .b, .c] := by
    intro set
    cases set <;> decide
  exact all _ firstDigit _ secondDigit _ (everySet first.set) _ (everySet second.set) same

theorem setsOfFirst_injective :
    ∀ first < 10, ∀ second < 10, setsOfFirst first = setsOfFirst second → first = second := by
  decide

@[simp]
theorem length_pattern (character : Character) : character.pattern.length = 7 := by
  rcases character with ⟨set, digit⟩
  cases set <;> unfold Character.pattern elementWidths <;> dsimp only <;> split <;> rfl

@[simp]
theorem length_setsOfFirst (first : Nat) : (setsOfFirst first).length = 6 := by
  unfold setsOfFirst
  split <;> rfl

theorem not_right_of_mem_setsOfFirst (first : Nat) :
    ∀ set ∈ setsOfFirst first, set ∈ [NumberSet.a, .b] := by
  unfold setsOfFirst
  split <;> decide

theorem mem_charactersOf_iff {sets : List NumberSet} {character : Character} :
    character ∈ charactersOf sets ↔ character.set ∈ sets ∧ character.digit < 10 := by
  rw [charactersOf, List.mem_flatMap]
  constructor
  · rintro ⟨set, inSets, member⟩
    rcases List.mem_map.mp member with ⟨digit, small, rfl⟩
    exact ⟨inSets, List.mem_range.mp small⟩
  · rintro ⟨inSets, small⟩
    exact ⟨character.set, inSets, List.mem_map.mpr ⟨_, List.mem_range.mpr small, rfl⟩⟩

theorem character?_eq_some_iff
    {sets : List NumberSet}
    {pattern : List Bool}
    {character : Character} :
    character? sets pattern = some character ↔
      (character.set ∈ sets ∧ character.digit < 10) ∧ character.pattern = pattern := by
  rw [← mem_charactersOf_iff]
  apply Bars.find?_eq_some_iff_of_injective
  intro first firstMember second secondMember
  exact pattern_injective (mem_charactersOf_iff.mp firstMember).2
    (mem_charactersOf_iff.mp secondMember).2

theorem first?_eq_some_iff {sets : List NumberSet} {first : Nat} :
    first? sets = some first ↔ first < 10 ∧ setsOfFirst first = sets := by
  rw [← List.mem_range]
  apply Bars.find?_eq_some_iff_of_injective
  intro first firstMember second secondMember
  exact setsOfFirst_injective first (List.mem_range.mp firstMember) second
    (List.mem_range.mp secondMember)

/-! ## Reading in order -/

theorem behind?_eq_some_iff {bars modules rest : List Bool} :
    behind? bars modules = some rest ↔ modules = bars ++ rest := by
  unfold behind?
  constructor
  · intro found
    split at found
    · rename_i front
      obtain ⟨rest, rfl⟩ := List.isPrefixOf_iff_prefix.mp front
      cases found
      rw [List.drop_left]
    · cases found
  · rintro rfl
    have front : bars.isPrefixOf (bars ++ rest) = true :=
      List.isPrefixOf_iff_prefix.mpr (List.prefix_append bars rest)
    rw [if_pos front, List.drop_left]

theorem characters?_eq_entries? (sets : List NumberSet) (count : Nat) (modules : List Bool) :
    characters? sets count modules = Bars.entries? (character? sets) 7 count modules := by
  induction count generalizing modules with
  | zero =>
      rfl
  | succ count ih =>
      rw [characters?, Bars.entries?, ih]

/-- Characters are read exactly where their patterns stand one after another. -/
theorem characters?_eq_some_iff
    {sets : List NumberSet}
    {count : Nat}
    {modules rest : List Bool}
    {characters : List Character} :
    characters? sets count modules = some (characters, rest) ↔
      characters.length = count ∧
        (∀ character ∈ characters, character.set ∈ sets ∧ character.digit < 10) ∧
          modules = characters.flatMap Character.pattern ++ rest := by
  rw [characters?_eq_entries?]
  exact Bars.entries?_eq_some_iff character?_eq_some_iff fun _ => length_pattern _

/-! ## Reading a code -/

theorem zipWith_set_digit (characters : List Character) :
    (characters.map Character.set).zipWith Character.mk (characters.map Character.digit) =
      characters := by
  induction characters with
  | nil =>
      rfl
  | cons character characters ih =>
      exact congrArg (character :: ·) ih

theorem map_zipWith_mk
    {sets : List NumberSet}
    {digits : List Nat}
    (same : sets.length = digits.length) :
    (sets.zipWith Character.mk digits).map Character.set = sets ∧
      (sets.zipWith Character.mk digits).map Character.digit = digits := by
  induction sets generalizing digits with
  | nil =>
      rw [List.eq_nil_of_length_eq_zero same.symm]
      exact ⟨rfl, rfl⟩
  | cons set sets ih =>
      cases digits with
      | nil =>
          cases same
      | cons digit digits =>
          obtain ⟨laterSets, laterDigits⟩ := ih (Nat.succ.inj same)
          exact ⟨congrArg (set :: ·) laterSets, congrArg (digit :: ·) laterDigits⟩

theorem map_mk_digit
    {characters : List Character}
    {set : NumberSet}
    (same : ∀ character ∈ characters, character.set ∈ [set]) :
    (characters.map Character.digit).map (Character.mk set) = characters := by
  have each : ∀ character ∈ characters,
      (Character.mk set ∘ Character.digit) character = id character := by
    intro character member
    obtain rfl := List.mem_singleton.mp (same character member)
    rfl
  rw [List.map_map, List.map_congr_left each, List.map_id]

/-- The digits on the left side are printed one by one, each from its set. -/
theorem length_zipWith_setsOfFirst
    {first : Nat}
    {digits : List Nat}
    (length : digits.length = 6) :
    ((setsOfFirst first).zipWith Character.mk digits).length = 6 := by
  rw [List.length_zipWith, length_setsOfFirst, length]
  rfl

theorem known_of_mem_zipWith_setsOfFirst
    {first : Nat}
    {digits : List Nat}
    (length : digits.length = 6)
    (small : ∀ digit ∈ digits, digit < 10) :
    ∀ character ∈ (setsOfFirst first).zipWith Character.mk digits,
      character.set ∈ [NumberSet.a, .b] ∧ character.digit < 10 := by
  obtain ⟨sets, back⟩ := map_zipWith_mk ((length_setsOfFirst first).trans length.symm)
  intro character member
  have set : character.set ∈ setsOfFirst first := sets ▸ List.mem_map_of_mem member
  have digit : character.digit ∈ digits := back ▸ List.mem_map_of_mem member
  exact ⟨not_right_of_mem_setsOfFirst first _ set, small _ digit⟩

theorem known_of_mem_map_mk
    {set : NumberSet}
    {digits : List Nat}
    (small : ∀ digit ∈ digits, digit < 10) :
    ∀ character ∈ digits.map (Character.mk set),
      character.set ∈ [set] ∧ character.digit < 10 := by
  rw [List.forall_mem_map]
  intro digit member
  exact ⟨List.mem_cons_self, small digit member⟩

/-- What is read in order is the code that the modules show. -/
theorem shows_of_read?
    {modules : List Bool}
    {code : List Nat}
    (read : read? modules = some code) :
    Shows modules code := by
  simp only [read?, Option.bind_eq_bind, Option.bind_eq_some_iff] at read
  obtain ⟨afterEdge, edgeRead, ⟨left, afterLeft⟩, leftRead, afterMiddle, middleRead,
    ⟨right, afterRight⟩, rightRead, read⟩ := read
  dsimp only at middleRead read
  split at read
  · rename_i ends
    obtain ⟨first, firstFound, read⟩ := Option.bind_eq_some_iff.mp read
    cases read
    obtain ⟨firstDigit, sets⟩ := first?_eq_some_iff.mp firstFound
    obtain ⟨leftLength, leftKnown, leftFront⟩ := characters?_eq_some_iff.mp leftRead
    obtain ⟨rightLength, rightKnown, rightFront⟩ := characters?_eq_some_iff.mp rightRead
    refine ⟨first, left.map Character.digit, right.map Character.digit, ?_, ?_, ?_, rfl, ?_⟩
    · rw [List.forall_mem_cons, List.forall_mem_append, List.forall_mem_map, List.forall_mem_map]
      refine ⟨firstDigit, ?_, ?_⟩
      · intro character member
        exact (leftKnown character member).2
      · intro character member
        exact (rightKnown character member).2
    · rw [List.length_map, leftLength]
    · rw [List.length_map, rightLength]
    · rw [behind?_eq_some_iff.mp edgeRead, leftFront, behind?_eq_some_iff.mp middleRead,
        rightFront, ends, sets, zipWith_set_digit,
        map_mk_digit fun character member => (rightKnown character member).1]
      simp only [List.append_assoc]
  · cases read

/-- A code that modules show is read from them. -/
theorem read?_of_shows
    {modules : List Bool}
    {code : List Nat}
    (shows : Shows modules code) :
    read? modules = some code := by
  obtain ⟨first, left, right, small, leftLength, rightLength, rfl, rfl⟩ := shows
  obtain ⟨firstDigit, others⟩ := List.forall_mem_cons.mp small
  obtain ⟨leftDigits, rightDigits⟩ := List.forall_mem_append.mp others
  obtain ⟨leftSets, leftBack⟩ :=
    map_zipWith_mk ((length_setsOfFirst first).trans leftLength.symm)
  have edgeRead : ∀ rest, behind? edge (edge ++ rest) = some rest :=
    fun rest => behind?_eq_some_iff.mpr rfl
  have middleRead : ∀ rest, behind? middle (middle ++ rest) = some rest :=
    fun rest => behind?_eq_some_iff.mpr rfl
  have leftRead : ∀ rest, characters? [.a, .b] 6
      (((setsOfFirst first).zipWith Character.mk left).flatMap Character.pattern ++ rest) =
        some ((setsOfFirst first).zipWith Character.mk left, rest) :=
    fun rest => characters?_eq_some_iff.mpr ⟨length_zipWith_setsOfFirst leftLength,
      known_of_mem_zipWith_setsOfFirst leftLength leftDigits, rfl⟩
  have rightRead : ∀ rest, characters? [.c] 6
      ((right.map (Character.mk .c)).flatMap Character.pattern ++ rest) =
        some (right.map (Character.mk .c), rest) :=
    fun rest => characters?_eq_some_iff.mpr ⟨(List.length_map _).trans rightLength,
      known_of_mem_map_mk rightDigits, rfl⟩
  have firstRead : first? (setsOfFirst first) = some first :=
    first?_eq_some_iff.mpr ⟨firstDigit, rfl⟩
  simp only [read?, List.append_assoc, edgeRead, leftRead, middleRead, rightRead, leftSets,
    leftBack, firstRead, Option.bind_eq_bind, Option.bind_some, if_true, List.map_map]
  change some (first :: (left ++ right.map id)) = _
  rw [List.map_id]

/-- A reader finds exactly the codes that modules show. -/
theorem read?_eq_some_iff {modules : List Bool} {code : List Nat} :
    read? modules = some code ↔ Shows modules code :=
  ⟨shows_of_read?, read?_of_shows⟩

/-- No modules show two codes. -/
theorem Shows.unique
    {modules : List Bool}
    {code other : List Nat}
    (shows : Shows modules code) :
    Shows modules other ↔ other = code := by
  rw [← read?_eq_some_iff, read?_of_shows shows, Option.some.injEq, eq_comm]

/-! ## The symbol of a code -/

theorem leftOdd_eq_pattern : ∀ digit < 10, leftOdd digit = Character.pattern ⟨.a, digit⟩ := by
  decide

theorem leftEven_eq_pattern : ∀ digit < 10, leftEven digit = Character.pattern ⟨.b, digit⟩ := by
  decide

theorem right_eq_pattern : ∀ digit < 10, right digit = Character.pattern ⟨.c, digit⟩ := by
  decide

theorem evenParity_eq_map :
    ∀ first < 10, evenParity first = (setsOfFirst first).map fun set => decide (set = .b) := by
  decide

/-- The left side of a symbol is printed from the sets that go with its parities. -/
theorem leftSide_eq_flatMap
    {sets : List NumberSet}
    {digits : List Nat}
    (onLeft : ∀ set ∈ sets, set ∈ [NumberSet.a, .b])
    (small : ∀ digit ∈ digits, digit < 10) :
    leftSide (sets.map fun set => decide (set = .b)) digits =
      (sets.zipWith Character.mk digits).flatMap Character.pattern := by
  induction digits generalizing sets with
  | nil =>
      cases sets <;> rfl
  | cons digit digits ih =>
      cases sets with
      | nil =>
          rfl
      | cons set sets =>
          obtain ⟨setOnLeft, setsOnLeft⟩ := List.forall_mem_cons.mp onLeft
          obtain ⟨digitLt, digitsLt⟩ := List.forall_mem_cons.mp small
          have first : (if decide (set = .b) then leftEven digit else leftOdd digit) =
              Character.pattern ⟨set, digit⟩ := by
            cases set with
            | a => exact leftOdd_eq_pattern digit digitLt
            | b => exact leftEven_eq_pattern digit digitLt
            | c => simp at setOnLeft
          change (if decide (set = .b) then leftEven digit else leftOdd digit) ++
            leftSide _ digits = _ ++ _
          rw [first, ih setsOnLeft digitsLt]
          rfl

theorem flatMap_right_eq_flatMap
    {digits : List Nat}
    (small : ∀ digit ∈ digits, digit < 10) :
    digits.flatMap right = (digits.map (Character.mk .c)).flatMap Character.pattern := by
  rw [List.flatMap_map, List.flatMap_def, List.flatMap_def]
  apply congrArg List.flatten
  apply List.map_congr_left
  intro digit member
  exact right_eq_pattern digit (small digit member)

/-- The symbol of thirteen digits shows them. -/
theorem shows_modules
    {code : List Nat}
    (length : code.length = 13)
    (small : ∀ digit ∈ code, digit < 10) :
    Shows (modules code) code := by
  cases code with
  | nil =>
      cases length
  | cons first digits =>
      obtain ⟨firstDigit, others⟩ := List.forall_mem_cons.mp small
      have count : digits.length = 12 := Nat.succ.inj length
      refine ⟨first, digits.take 6, digits.drop 6, ?_, ?_, ?_, ?_, ?_⟩
      · rw [List.take_append_drop]
        exact small
      · rw [List.length_take, count]
        rfl
      · rw [List.length_drop, count]
      · rw [List.take_append_drop]
      · rw [modules, evenParity_eq_map first firstDigit,
          leftSide_eq_flatMap (not_right_of_mem_setsOfFirst first)
            fun digit member => others digit (List.mem_of_mem_take member),
          flatMap_right_eq_flatMap fun digit member => others digit (List.mem_of_mem_drop member)]
        rfl

theorem length_flatMap_pattern (characters : List Character) :
    (characters.flatMap Character.pattern).length = 7 * characters.length := by
  induction characters with
  | nil =>
      rfl
  | cons character characters ih =>
      rw [List.flatMap_cons, List.length_append, length_pattern, ih, List.length_cons]
      omega

/-- Bars at the ends and in the middle, and six characters of seven modules on either side. -/
theorem Shows.layout
    {modules : List Bool}
    {code : List Nat}
    (shows : Shows modules code) :
    modules.length = 95 ∧
      ∃ left right : List (List Bool),
        left.length = 6 ∧ right.length = 6 ∧ (∀ pattern ∈ left ++ right, pattern.length = 7) ∧
          modules = edge ++ left.flatten ++ middle ++ right.flatten ++ edge := by
  obtain ⟨first, left, right, -, leftLength, rightLength, -, rfl⟩ := shows
  have leftCount : ((setsOfFirst first).zipWith Character.mk left).length = 6 :=
    length_zipWith_setsOfFirst leftLength
  have rightCount : (right.map (Character.mk .c)).length = 6 :=
    (List.length_map _).trans rightLength
  constructor
  · simp only [List.length_append, length_flatMap_pattern, leftCount, rightCount]
    rfl
  · refine ⟨((setsOfFirst first).zipWith Character.mk left).map Character.pattern,
      (right.map (Character.mk .c)).map Character.pattern, ?_, ?_, ?_, ?_⟩
    · rw [List.length_map, leftCount]
    · rw [List.length_map, rightCount]
    · rw [← List.map_append, List.forall_mem_map]
      intro character _
      exact length_pattern character
    · rw [List.flatMap_def, List.flatMap_def]

/--
The symbol of a code is read as the code.  The symbol of any thirteen digits has 95 modules, in
which six characters of seven modules stand between the bars at either end and those in the middle.
By the tables of the standard it shows these digits and no others, and a reader finds them.  Data of
digits always have a symbol; what is read from it is the first twelve of the digits, behind zeros if
there are fewer, and a check digit that makes the code valid.
-/
theorem read?_symbol :
    (∀ data : List Char,
        data.length = 13 → (∀ character ∈ data, isDecimalDigit character = true) →
          let code := data.filterMap decimalDigit?
          let symbol := modules code
          text code = data ∧ symbol.length = 95 ∧
            (∃ left right : List (List Bool),
              left.length = 6 ∧ right.length = 6 ∧
                (∀ pattern ∈ left ++ right, pattern.length = 7) ∧
                  symbol = [true, false, true] ++ left.flatten ++
                    [false, true, false, true, false] ++ right.flatten ++ [true, false, true]) ∧
            read? symbol = some code ∧ ∀ other, Shows symbol other ↔ other = code) ∧
      ∀ data : List Char,
        (∀ character ∈ data, isDecimalDigit character = true) →
          ∃ code check,
            normalize data = .ok code ∧ read? (modules code) = some code ∧ Valid code ∧
              text code = List.replicate (12 - data.length) '0' ++ data.take 12 ++ [check] := by
  constructor
  · intro data length digits code symbol
    have written : text code = data := map_digitChar_filterMap digits
    have count : code.length = 13 := by
      rw [← length, ← written, text, List.length_map]
    have shows : Shows symbol code := shows_modules count lt_of_mem_filterMap
    exact ⟨written, shows.layout.1, shows.layout.2, read?_of_shows shows, fun _ => shows.unique⟩
  · intro data digits
    obtain ⟨code, check, normal, valid, written⟩ := exists_normalize digits
    have shows := shows_modules valid.length valid.digits
    exact ⟨code, check, normal, read?_of_shows shows, valid, written⟩

/-- Five digits, and thirteen whose left side is printed from both sets. -/
theorem read?_symbol_of_digits :
    let short := "12345".toList
    let long := "5901234123457".toList
    let code := [5, 9, 0, 1, 2, 3, 4, 1, 2, 3, 4, 5, 7]
    ((∀ character ∈ short, isDecimalDigit character = true) ∧
        normalize short = .ok [0, 0, 0, 0, 0, 0, 0, 1, 2, 3, 4, 5, 7] ∧
        read? (modules [0, 0, 0, 0, 0, 0, 0, 1, 2, 3, 4, 5, 7]) =
          some [0, 0, 0, 0, 0, 0, 0, 1, 2, 3, 4, 5, 7]) ∧
      long.length = 13 ∧ (∀ character ∈ long, isDecimalDigit character = true) ∧
        long.filterMap decimalDigit? = code ∧ read? (modules code) = some code := by
  intro short long code
  have shortDigits : ∀ character ∈ short, isDecimalDigit character = true := by
    simp [short, isDecimalDigit]
  have longDigits : ∀ character ∈ long, isDecimalDigit character = true := by
    simp [long, isDecimalDigit]
  have shortCode : normalize short = .ok [0, 0, 0, 0, 0, 0, 0, 1, 2, 3, 4, 5, 7] := by
    with_unfolding_all rfl
  have longCode : long.filterMap decimalDigit? = code := by
    decide
  obtain ⟨thirteen, any⟩ := read?_symbol
  refine ⟨⟨shortDigits, shortCode, ?_⟩, rfl, longDigits, longCode, ?_⟩
  · obtain ⟨found, check, normal, read, -, -⟩ := any short shortDigits
    rw [shortCode] at normal
    cases normal
    exact read
  · obtain ⟨-, -, -, read, -⟩ := thirteen long rfl longDigits
    rw [longCode] at read
    exact read

end LabelPress.Ean13
