import LabelPress.Text.Wrapping
import Mathlib.Data.List.Chain
import Mathlib.Data.List.Forall2

/-!
# Wrapping is greedy

`CutWhere` says where a list is cut into groups: between an item and the items in front of it in
its group exactly where a given condition holds.  A list can be cut in one way only
(`CutWhere.unique`).  Two things are cut so here: a word into parts, behind every hyphen
(`EndsAtHyphen`), and the pieces of a text into lines, where the next piece would make a line too
wide (`Overflows`).

The main statement (`wrap_greedy`) is that wrapping finds these lines, whatever the measure is, that
they differ from the text in nothing but spaces, and that a block holds the first lines of its
paragraphs.
-/

namespace LabelPress.Text

/-! ## Lists that are cut into groups -/

section Cuts

universe u

variable {Item : Type u} {ends : List Item → Item → Prop}

/-- No group is empty, and a group goes on with an item unless it ends in front of it. -/
structure CutWhere (ends : List Item → Item → Prop) (groups : List (List Item)) : Prop where
  nonempty : [] ∉ groups
  together : ∀ group ∈ groups, ∀ front item,
    front ≠ [] → front ++ [item] <+: group → ¬ ends front item
  apart : groups.IsChain fun group next => ∀ item ∈ next.head?, ends group item

theorem CutWhere.tail
    {group : List Item}
    {groups : List (List Item)}
    (cut : CutWhere ends (group :: groups)) :
    CutWhere ends groups where
  nonempty := fun member => cut.nonempty (List.mem_cons_of_mem group member)
  together := fun other member => cut.together other (List.mem_cons_of_mem group member)
  apart := cut.apart.tail

theorem CutWhere.nil : CutWhere ends [] where
  nonempty := List.not_mem_nil
  together := fun _ member => absurd member List.not_mem_nil
  apart := List.isChain_nil

theorem CutWhere.cons
    {group : List Item}
    {groups : List (List Item)}
    (nonempty : group ≠ [])
    (together : ∀ front item, front ≠ [] → front ++ [item] <+: group → ¬ ends front item)
    (apart : ∀ next ∈ groups.head?, ∀ item ∈ next.head?, ends group item)
    (later : CutWhere ends groups) :
    CutWhere ends (group :: groups) where
  nonempty := by
    intro member
    rcases List.mem_cons.mp member with empty | member
    · exact nonempty empty.symm
    · exact later.nonempty member
  together := by
    intro other member
    rcases List.mem_cons.mp member with rfl | member
    · exact together
    · exact later.together other member
  apart := later.apart.cons apart

theorem CutWhere.ne_nil
    {group : List Item}
    {groups : List (List Item)}
    (cut : CutWhere ends (group :: groups)) :
    group ≠ [] := by
  rintro rfl
  exact cut.nonempty List.mem_cons_self

/-- Behind a group there is nothing, or an item in front of which the group ends. -/
theorem CutWhere.ends_of_flatten
    {group : List Item}
    {groups : List (List Item)}
    (cut : CutWhere ends (group :: groups))
    {item : Item}
    {items : List Item}
    (behind : groups.flatten = item :: items) :
    ends group item := by
  cases groups with
  | nil =>
      cases behind
  | cons next groups =>
      have first := List.isChain_cons_cons.mp cut.apart
      cases next with
      | nil =>
          exact absurd rfl cut.tail.ne_nil
      | cons head next =>
          cases behind
          exact first.1 item rfl

/-- Of two cuts of a list, the first group of neither is shorter than that of the other. -/
theorem CutWhere.eq_nil_of_append
    {group more : List Item}
    {groups others : List (List Item)}
    (cut : CutWhere ends (group :: groups))
    (other : CutWhere ends ((group ++ more) :: others))
    (behind : groups.flatten = more ++ others.flatten) :
    more = [] := by
  cases more with
  | nil =>
      rfl
  | cons item more =>
      have goesOn : group ++ [item] <+: group ++ item :: more :=
        ⟨more, by simp⟩
      have stays := other.together _ List.mem_cons_self group item cut.ne_nil goesOn
      exact absurd (cut.ends_of_flatten behind) stays

theorem CutWhere.unique
    {groups others : List (List Item)}
    (cut : CutWhere ends groups)
    (other : CutWhere ends others)
    (same : groups.flatten = others.flatten) :
    groups = others := by
  induction groups generalizing others with
  | nil =>
      cases others with
      | nil =>
          rfl
      | cons next others =>
          have empty := List.append_eq_nil_iff.mp same.symm
          exact absurd empty.1 other.ne_nil
  | cons group groups ih =>
      cases others with
      | nil =>
          have empty := List.append_eq_nil_iff.mp same
          exact absurd empty.1 cut.ne_nil
      | cons next others =>
          rw [List.flatten_cons, List.flatten_cons] at same
          rcases List.append_eq_append_iff.mp same with
            ⟨more, rfl, behind⟩ | ⟨more, rfl, behind⟩
          · obtain rfl := cut.eq_nil_of_append other behind
            rw [List.append_nil] at other ⊢
            rw [ih cut.tail other.tail behind]
          · obtain rfl := other.eq_nil_of_append cut behind
            rw [List.append_nil] at cut ⊢
            rw [ih cut.tail other.tail behind.symm]

end Cuts

/-! ## Words and their pieces -/

/-- A part of a word ends behind a hyphen. -/
def EndsAtHyphen (front : List Char) (_ : Char) : Prop :=
  front.getLast? = some '-'

/-- The words of a text, which stand between spaces. -/
def spacedWords (text : List Char) : List (List Char) :=
  (text.splitOn ' ').filter fun word => !word.isEmpty

/-- The pieces that the parts of a word are. -/
def piecesOfParts : List (List Char) → List Piece
  | [] => []
  | first :: rest => ⟨true, first⟩ :: rest.map (⟨false, ·⟩)

/-- The parts of a word, cut behind every hyphen. -/
structure WordParts (word : List Char) (parts : List (List Char)) : Prop where
  flatten : parts.flatten = word
  cut : CutWhere EndsAtHyphen parts

/-- The pieces of a text are those of its words, each cut behind every hyphen. -/
def PiecesOf (text : List Char) (found : List Piece) : Prop :=
  ∃ cuts, List.Forall₂ WordParts (spacedWords text) cuts ∧ found = cuts.flatMap piecesOfParts

theorem WordParts.unique
    {word : List Char}
    {parts others : List (List Char)}
    (cut : WordParts word parts)
    (other : WordParts word others) :
    parts = others :=
  cut.cut.unique other.cut (cut.flatten.trans other.flatten.symm)

theorem forall₂_wordParts_unique
    {words : List (List Char)}
    {cuts others : List (List (List Char))}
    (first : List.Forall₂ WordParts words cuts)
    (second : List.Forall₂ WordParts words others) :
    cuts = others := by
  induction first generalizing others with
  | nil =>
      cases second
      rfl
  | cons cut later ih =>
      cases second with
      | cons other others =>
          rw [cut.unique other, ih others]

theorem PiecesOf.unique
    {text : List Char}
    {found others : List Piece}
    (first : PiecesOf text found)
    (second : PiecesOf text others) :
    found = others := by
  rcases first with ⟨cuts, cut, rfl⟩
  rcases second with ⟨otherCuts, otherCut, rfl⟩
  rw [forall₂_wordParts_unique cut otherCut]

theorem prefix_of_concat_prefix_concat
    {front text : List Char}
    {next last : Char}
    (inside : front ++ [next] <+: text ++ [last]) :
    front <+: text := by
  rcases List.prefix_concat_iff.mp inside with same | inside
  · exact (List.append_inj' same rfl).1 ▸ List.prefix_rfl
  · exact (List.prefix_append front [next]).trans inside

theorem not_endsAtHyphen
    {front text : List Char}
    (plain : '-' ∉ text)
    (inside : front <+: text)
    (next : Char) :
    ¬ EndsAtHyphen front next := by
  intro atEnd
  exact plain (inside.mem (List.mem_of_getLast? atEnd))

theorem hyphenPartsFrom_hyphen (reversed rest : List Char) :
    hyphenPartsFrom reversed ('-' :: rest) =
      (reversed.reverse ++ ['-']) :: hyphenPartsFrom [] rest := by
  simp [hyphenPartsFrom]

theorem hyphenPartsFrom_plain
    (reversed : List Char)
    {character : Char}
    (rest : List Char)
    (plain : character ≠ '-') :
    hyphenPartsFrom reversed (character :: rest) =
      hyphenPartsFrom (character :: reversed) rest := by
  rw [hyphenPartsFrom, if_neg plain]

/-- The parts from the middle of a part on, whose beginning holds no hyphen. -/
theorem wordParts_hyphenPartsFrom
    {reversed : List Char}
    (text : List Char)
    (plain : '-' ∉ reversed) :
    WordParts (reversed.reverse ++ text) (hyphenPartsFrom reversed text) := by
  induction text generalizing reversed with
  | nil =>
      cases reversed with
      | nil =>
          exact ⟨rfl, .nil⟩
      | cons character reversed =>
          have plainReverse : '-' ∉ (character :: reversed).reverse :=
            fun member => plain (List.mem_reverse.mp member)
          constructor
          · simp [hyphenPartsFrom]
          · apply CutWhere.cons
            · simp
            · intro front item _ goesOn
              exact not_endsAtHyphen plainReverse ((List.prefix_append _ _).trans goesOn) item
            · simp
            · exact .nil
  | cons character text ih =>
      by_cases hyphen : character = '-'
      · subst hyphen
        have later : WordParts text (hyphenPartsFrom [] text) := ih List.not_mem_nil
        rw [hyphenPartsFrom_hyphen]
        constructor
        · rw [List.flatten_cons, later.flatten, List.append_assoc, List.singleton_append]
        · apply CutWhere.cons
          · simp
          · intro front item _ goesOn
            have plainReverse : '-' ∉ reversed.reverse :=
              fun member => plain (List.mem_reverse.mp member)
            exact not_endsAtHyphen plainReverse (prefix_of_concat_prefix_concat goesOn) item
          · intro next _ item _
            exact List.getLast?_concat
          · exact later.cut
      · rw [hyphenPartsFrom_plain _ _ hyphen]
        have later := @ih (character :: reversed) (by simp [plain, Ne.symm hyphen])
        simpa using later

theorem wordPieces_eq (word : List Char) :
    wordPieces word = piecesOfParts (hyphenPartsFrom [] word) := by
  rw [wordPieces]
  cases hyphenPartsFrom [] word <;> rfl

/-- The pieces that wrapping takes a text apart into are the pieces of the text. -/
theorem piecesOf_pieces (text : List Char) : PiecesOf text (pieces text) := by
  refine ⟨(spacedWords text).map (hyphenPartsFrom []), ?_, ?_⟩
  · apply List.forall₂_map_right_iff.mpr
    apply List.forall₂_same.mpr
    intro word _
    exact wordParts_hyphenPartsFrom word List.not_mem_nil
  · rw [List.flatMap_map]
    exact congrArg (List.flatMap · (spacedWords text)) (funext wordPieces_eq)

/-! ## Spaces between words -/

/-- A piece has characters, none of which is a space. -/
def Piece.Solid (piece : Piece) : Prop :=
  piece.text ≠ [] ∧ ' ' ∉ piece.text

/-- What stands between spaces holds none, and together it is all that the spaces leave. -/
theorem splitOn_spaces (text : List Char) :
    (∀ word ∈ text.splitOn ' ', ' ' ∉ word) ∧
      (text.splitOn ' ').flatten = text.filter (· ≠ ' ') := by
  induction text with
  | nil =>
      simp
  | cons character text ih =>
      rw [List.splitOn_cons_eq_if_modifyHead]
      by_cases space : character = ' '
      · subst space
        simpa using ih
      · have notNil : text.splitOn ' ' ≠ [] := List.splitOn_ne_nil ' ' text
        rw [if_neg (by simpa using space)]
        cases split : text.splitOn ' ' with
        | nil =>
            exact absurd split notNil
        | cons word words =>
            rw [split] at ih
            constructor
            · simpa [Ne.symm space] using ih.1
            · simpa [space] using ih.2

theorem solid_of_mem_spacedWords
    {text word : List Char}
    (member : word ∈ spacedWords text) :
    ' ' ∉ word :=
  (splitOn_spaces text).1 word (List.mem_filter.mp member).1

theorem flatten_spacedWords (text : List Char) :
    (spacedWords text).flatten = text.filter (· ≠ ' ') := by
  rw [← (splitOn_spaces text).2]
  exact List.flatten_filter_not_isEmpty

theorem flatMap_text_piecesOfParts (parts : List (List Char)) :
    (piecesOfParts parts).flatMap Piece.text = parts.flatten := by
  cases parts with
  | nil =>
      rfl
  | cons first rest =>
      simp [piecesOfParts, List.flatMap_map]

theorem text_mem_of_mem_piecesOfParts
    {parts : List (List Char)}
    {piece : Piece}
    (member : piece ∈ piecesOfParts parts) :
    piece.text ∈ parts := by
  cases parts with
  | nil =>
      cases member
  | cons first rest =>
      simp only [piecesOfParts, List.mem_cons, List.mem_map] at member
      rcases member with rfl | ⟨part, inRest, rfl⟩
      · exact List.mem_cons_self
      · exact List.mem_cons_of_mem first inRest

theorem WordParts.solid
    {word : List Char}
    {parts : List (List Char)}
    (cut : WordParts word parts)
    (spaceless : ' ' ∉ word) :
    ∀ piece ∈ piecesOfParts parts, piece.Solid := by
  intro piece member
  have part := text_mem_of_mem_piecesOfParts member
  constructor
  · intro empty
    exact cut.cut.nonempty (empty ▸ part)
  · intro space
    apply spaceless
    rw [← cut.flatten]
    exact List.mem_flatten_of_mem part space

theorem PiecesOf.solid
    {text : List Char}
    {found : List Piece}
    (piecesOf : PiecesOf text found) :
    (∀ piece ∈ found, piece.Solid) ∧
      found.flatMap Piece.text = text.filter (· ≠ ' ') := by
  rcases piecesOf with ⟨cuts, cut, rfl⟩
  have words : ∀ word ∈ spacedWords text, ' ' ∉ word :=
    fun _ member => solid_of_mem_spacedWords member
  rw [← flatten_spacedWords]
  generalize spacedWords text = spaced at cut words
  induction cut with
  | nil =>
      simp
  | @cons word parts spaced cuts first later ih =>
      obtain ⟨spaceless, others⟩ := List.forall_mem_cons.mp words
      obtain ⟨laterSolid, laterText⟩ := ih others
      constructor
      · intro piece member
        rw [List.flatMap_cons] at member
        rcases List.mem_append.mp member with member | member
        · exact first.solid spaceless piece member
        · exact laterSolid piece member
      · rw [List.flatMap_cons, List.flatMap_append, laterText, flatMap_text_piecesOfParts,
          first.flatten, List.flatten_cons]

/-! ## Lines -/

/-- What a piece adds to a line in which other pieces stand before it. -/
def Piece.behind (piece : Piece) : List Char :=
  if piece.startsWord then ' ' :: piece.text else piece.text

/-- The line of pieces. -/
def lineOf : List Piece → List Char
  | [] => []
  | first :: rest => first.text ++ rest.flatMap Piece.behind

/-- The lines of groups of pieces; no pieces make one line that is empty. -/
def linesOf : List (List Piece) → List (List Char)
  | [] => [[]]
  | group :: groups => (group :: groups).map lineOf

/-- A line becomes too wide with the next piece. -/
def Overflows (measure : List Char → Nat) (width : Nat) (line : List Piece) (next : Piece) :
    Prop :=
  width < measure (lineOf (line ++ [next]))

theorem lineOf_concat
    {line : List Piece}
    (nonempty : line ≠ [])
    (piece : Piece) :
    lineOf (line ++ [piece]) = lineOf line ++ piece.behind := by
  cases line with
  | nil =>
      exact absurd rfl nonempty
  | cons first rest =>
      simp [lineOf]

theorem lineOf_singleton (piece : Piece) : lineOf [piece] = piece.text :=
  List.append_nil _

theorem lineOf_ne_nil
    {line : List Piece}
    (nonempty : line ≠ [])
    (solid : ∀ piece ∈ line, piece.Solid) :
    lineOf line ≠ [] := by
  cases line with
  | nil =>
      exact absurd rfl nonempty
  | cons first rest =>
      intro empty
      exact (solid first List.mem_cons_self).1 (List.append_eq_nil_iff.mp empty).1

/-- Two characters stand nowhere next to each other. -/
theorem not_pair_infix_iff {first second : Char} {text : List Char} :
    ¬ [first, second] <:+: text ↔
      text.IsChain fun before behind => ¬ (before = first ∧ behind = second) := by
  rw [List.isChain_iff_forall_rel_of_append_cons_cons]
  constructor
  · rintro absent before behind front rest rfl ⟨rfl, rfl⟩
    exact absent ⟨front, rest, by simp⟩
  · rintro apart ⟨front, rest, rfl⟩
    exact apart (List.append_assoc front [first, second] rest) ⟨rfl, rfl⟩

/-- A line begins and ends with no space, and it holds no two spaces in a row. -/
structure Spaced (line : List Char) : Prop where
  front : line.head? ≠ some ' '
  back : line.getLast? ≠ some ' '
  single : ¬ [' ', ' '] <:+: line

theorem Spaced.of_spaceless
    {text : List Char}
    (spaceless : ' ' ∉ text) :
    Spaced text where
  front := fun space => spaceless (List.mem_of_head? space)
  back := fun space => spaceless (List.mem_of_getLast? space)
  single := fun inside => spaceless (inside.subset List.mem_cons_self)

theorem Spaced.append_behind
    {line : List Char}
    {piece : Piece}
    (spaced : Spaced line)
    (nonempty : line ≠ [])
    (solid : piece.Solid) :
    Spaced (line ++ piece.behind) := by
  have text := Spaced.of_spaceless solid.2
  have textChain := not_pair_infix_iff.mp text.single
  have lineChain := not_pair_infix_iff.mp spaced.single
  constructor
  · rw [List.head?_append_of_ne_nil line nonempty]
    exact spaced.front
  · rw [Piece.behind]
    split
    · rw [List.getLast?_append_of_ne_nil _ (List.cons_ne_nil _ _),
        List.getLast?_cons_of_ne_nil solid.1]
      exact text.back
    · rw [List.getLast?_append_of_ne_nil _ solid.1]
      exact text.back
  · apply not_pair_infix_iff.mpr
    rw [Piece.behind]
    split
    · apply lineChain.append
      · apply textChain.cons
        rintro next atFront ⟨-, rfl⟩
        exact text.front atFront
      · rintro last atBack next - ⟨rfl, -⟩
        exact spaced.back atBack
    · apply lineChain.append textChain
      rintro last - next atFront ⟨-, rfl⟩
      exact text.front atFront

/-- The lines of groups have spaces between words only. -/
theorem spaced_lineOf
    {line : List Piece}
    (solid : ∀ piece ∈ line, piece.Solid) :
    Spaced (lineOf line) := by
  induction line using List.reverseRecOn with
  | nil =>
      exact .of_spaceless List.not_mem_nil
  | append_singleton line piece ih =>
      obtain ⟨lineSolid, pieceSolid⟩ := List.forall_mem_append.mp solid
      have last : piece.Solid := pieceSolid piece List.mem_cons_self
      cases line with
      | nil =>
          rw [List.nil_append, lineOf_singleton]
          exact .of_spaceless last.2
      | cons first rest =>
          rw [lineOf_concat (List.cons_ne_nil first rest)]
          exact (ih lineSolid).append_behind
            (lineOf_ne_nil (List.cons_ne_nil first rest) lineSolid) last

theorem filter_text
    {piece : Piece}
    (solid : piece.Solid) :
    piece.text.filter (· ≠ ' ') = piece.text := by
  rw [List.filter_eq_self]
  intro character member
  apply decide_eq_true
  rintro rfl
  exact solid.2 member

theorem filter_behind
    {piece : Piece}
    (solid : piece.Solid) :
    piece.behind.filter (· ≠ ' ') = piece.text := by
  have kept := filter_text solid
  rw [Piece.behind]
  split
  · simpa using kept
  · exact kept

theorem filter_lineOf
    {line : List Piece}
    (solid : ∀ piece ∈ line, piece.Solid) :
    (lineOf line).filter (· ≠ ' ') = line.flatMap Piece.text := by
  cases line with
  | nil =>
      rfl
  | cons first rest =>
      obtain ⟨firstSolid, restSolid⟩ := List.forall_mem_cons.mp solid
      rw [lineOf, List.filter_append, List.filter_flatMap, filter_text firstSolid,
        List.flatMap_cons]
      apply congrArg (first.text ++ ·)
      apply List.flatMap_congr
      intro piece member
      exact filter_behind (restSolid piece member)

/-! ## Filling of lines -/

/-- A line of two pieces or more is not too wide. -/
theorem CutWhere.fits
    {measure : List Char → Nat}
    {width : Nat}
    {groups : List (List Piece)}
    (cut : CutWhere (Overflows measure width) groups)
    {group : List Piece}
    (member : group ∈ groups)
    (long : 2 ≤ group.length) :
    measure (lineOf group) ≤ width := by
  rcases List.eq_nil_or_concat group with rfl | ⟨front, last, rfl⟩
  · cases long
  · rw [List.concat_eq_append] at member long ⊢
    have frontNonempty : front ≠ [] := by
      rintro rfl
      simp at long
    exact Nat.not_lt.mp (cut.together _ member front last frontNonempty List.prefix_rfl)

theorem extendLine_lineOf
    {line : List Piece}
    (nonempty : line ≠ [])
    (solid : ∀ piece ∈ line, piece.Solid)
    (piece : Piece) :
    extendLine (lineOf line) piece = lineOf (line ++ [piece]) := by
  have notEmpty : (lineOf line).isEmpty = false := by
    simpa using lineOf_ne_nil nonempty solid
  rw [lineOf_concat nonempty, extendLine, Piece.behind, notEmpty]
  cases piece.startsWord <;> rfl

theorem not_concat_prefix_singleton
    {front : List Piece}
    {next piece : Piece}
    (nonempty : front ≠ []) :
    ¬ front ++ [next] <+: [piece] := by
  intro inside
  have short := inside.length_le
  simp only [List.length_append, List.length_singleton] at short
  exact nonempty (List.eq_nil_of_length_eq_zero (by omega))

/-- A line is filled up to the first piece with which it becomes too wide, and so are the next. -/
theorem exists_fillLines
    (measure : List Char → Nat)
    (width : Nat)
    {line : List Piece}
    (found : List Piece)
    (nonempty : line ≠ [])
    (solid : ∀ piece ∈ line ++ found, piece.Solid)
    (fits : ∀ front piece, front ≠ [] → front ++ [piece] <+: line →
      ¬ Overflows measure width front piece) :
    ∃ more groups, CutWhere (Overflows measure width) ((line ++ more) :: groups) ∧
      more ++ groups.flatten = found ∧
      fillLines measure width (lineOf line) found = ((line ++ more) :: groups).map lineOf := by
  induction found generalizing line with
  | nil =>
      refine ⟨[], [], ?_, rfl, ?_⟩
      · rw [List.append_nil]
        exact .cons nonempty fits (by simp) .nil
      · simp [fillLines]
  | cons piece found ih =>
      have lineSolid : ∀ piece ∈ line, piece.Solid :=
        fun _ member => solid _ (List.mem_append_left _ member)
      have notEmpty : (lineOf line).isEmpty = false := by
        simpa using lineOf_ne_nil nonempty lineSolid
      rw [fillLines, extendLine_lineOf nonempty lineSolid, notEmpty, Bool.false_or]
      by_cases wide : Overflows measure width line piece
      · -- The piece opens the next line.
        rw [if_neg (by simpa [Overflows] using wide)]
        have pieceSolid : ∀ other ∈ [piece] ++ found, other.Solid :=
          fun _ member => solid _ (List.mem_append_right _ member)
        obtain ⟨more, groups, cut, all, filled⟩ :=
          ih (List.cons_ne_nil piece []) pieceSolid
            fun _ _ frontNonempty inside =>
              absurd inside (not_concat_prefix_singleton frontNonempty)
        rw [lineOf_singleton] at filled
        refine ⟨[], ([piece] ++ more) :: groups, ?_, ?_, ?_⟩
        · rw [List.append_nil]
          apply CutWhere.cons nonempty fits _ cut
          rintro next ⟨⟩ item ⟨⟩
          exact wide
        · simpa using all
        · simp [filled]
      · rw [if_pos (by simpa [Overflows] using wide)]
        obtain ⟨more, groups, cut, all, filled⟩ :=
          @ih (line ++ [piece]) (by simp) (by simpa using solid) (by
            intro front item frontNonempty inside
            rcases List.prefix_concat_iff.mp inside with same | inside
            · obtain ⟨rfl, ⟨⟩⟩ := List.append_inj' same rfl
              exact wide
            · exact fits front item frontNonempty inside)
        refine ⟨piece :: more, groups, ?_, ?_, ?_⟩
        · simpa using cut
        · simpa using all
        · simpa using filled

/-- Pieces are filled into the lines of their one cut. -/
theorem exists_groups
    (measure : List Char → Nat)
    (width : Nat)
    {found : List Piece}
    (solid : ∀ piece ∈ found, piece.Solid) :
    ∃ groups, groups.flatten = found ∧ CutWhere (Overflows measure width) groups ∧
      fillLines measure width [] found = linesOf groups := by
  cases found with
  | nil =>
      exact ⟨[], rfl, .nil, rfl⟩
  | cons piece found =>
      have first : extendLine [] piece = lineOf [piece] := by
        rw [lineOf_singleton]
        simp [extendLine]
      obtain ⟨more, groups, cut, all, filled⟩ :=
        exists_fillLines measure width found (List.cons_ne_nil piece []) solid
          fun _ _ frontNonempty inside =>
            absurd inside (not_concat_prefix_singleton frontNonempty)
      refine ⟨([piece] ++ more) :: groups, ?_, cut, ?_⟩
      · simpa using all
      · simpa [fillLines, first, linesOf] using filled

theorem mem_of_mem_linesOf
    {groups : List (List Piece)}
    {line : List Char}
    (member : line ∈ linesOf groups) :
    line = [] ∨ ∃ group ∈ groups, lineOf group = line := by
  cases groups with
  | nil =>
      exact Or.inl (List.mem_singleton.mp member)
  | cons group groups =>
      exact Or.inr (List.mem_map.mp member)

theorem filter_linesOf
    {groups : List (List Piece)}
    (solid : ∀ piece ∈ groups.flatten, piece.Solid) :
    (linesOf groups).flatten.filter (· ≠ ' ') = groups.flatten.flatMap Piece.text := by
  have lines : (linesOf groups).flatten = groups.flatMap lineOf := by
    cases groups <;> rfl
  rw [lines]
  clear lines
  induction groups with
  | nil =>
      rfl
  | cons group groups ih =>
      rw [List.flatten_cons] at solid
      obtain ⟨groupSolid, others⟩ := List.forall_mem_append.mp solid
      rw [List.flatMap_cons, List.filter_append, filter_lineOf groupSolid, ih others,
        List.flatten_cons, List.flatMap_append]

/-! ## Paragraphs -/

/-- The mark between the paragraphs of a block. -/
def paragraphMark : List Char := ['\\', '&']

/-- The parts of a text between the marks, at least one. -/
structure MarkParts (text : List Char) (parts : List (List Char)) : Prop where
  nonempty : parts ≠ []
  joined : paragraphMark.intercalate parts = text
  unmarked : ∀ part ∈ parts, ¬ paragraphMark <:+: part

/-- The paragraphs from the middle of one on, whose beginning holds no mark. -/
theorem markParts_paragraphsFrom
    (reversed text : List Char)
    (unmarked : ¬ paragraphMark <:+: reversed.reverse)
    (seam : reversed.head? = some '\\' → text.head? ≠ some '&') :
    MarkParts (reversed.reverse ++ text) (paragraphsFrom reversed text) := by
  fun_induction paragraphsFrom reversed text with
  | case1 reversed =>
      constructor
      · simp
      · simp
      · simpa using unmarked
  | case2 reversed rest ih =>
      have later := ih (by simp [paragraphMark]) (by simp)
      constructor
      · simp
      · rw [List.intercalate_cons_of_ne_nil later.nonempty, later.joined]
        simp [paragraphMark]
      · intro part member
        rcases List.mem_cons.mp member with rfl | member
        · exact unmarked
        · exact later.unmarked part member
  | case3 reversed character rest notMark ih =>
      have extended : ¬ paragraphMark <:+: (character :: reversed).reverse := by
        rw [List.reverse_cons]
        apply not_pair_infix_iff.mpr
        apply (not_pair_infix_iff.mp unmarked).append (List.isChain_singleton character)
        rintro last atBack next ⟨⟩ ⟨rfl, rfl⟩
        rw [List.getLast?_reverse] at atBack
        exact seam atBack rfl
      have later := ih extended (by
        rintro ⟨⟩ atFront
        cases rest with
        | nil =>
            cases atFront
        | cons next rest =>
            cases atFront
            exact notMark rest rfl rfl)
      simpa using later

theorem markParts_paragraphs (text : List Char) : MarkParts text (paragraphs text) :=
  markParts_paragraphsFrom [] text (by simp [paragraphMark]) (by simp)

/--
Wrapping is an exact greedy partition, whatever the measure is.  The pieces of the text are cut into
lines at the places where the next piece would make the line too wide, and there is one such cut; a
line of two pieces or more fits.  Lines have spaces only between words, and but for the spaces they
hold the characters of the text in their order.  A block is made of the first lines of its
paragraphs.
-/
theorem wrap_greedy
    (measure : List Char → Nat)
    {width : Nat}
    (wide : 0 < width)
    (text : List Char) :
    (∃ groups,
      PiecesOf text groups.flatten ∧ CutWhere (Overflows measure width) groups ∧
        wrap measure width text = linesOf groups ∧
        (∀ others, PiecesOf text others.flatten → CutWhere (Overflows measure width) others →
          others = groups) ∧
        ∀ group ∈ groups, 2 ≤ group.length → measure (lineOf group) ≤ width) ∧
      (∀ line ∈ wrap measure width text, Spaced line) ∧
      (wrap measure width text).flatten.filter (· ≠ ' ') = text.filter (· ≠ ' ') ∧
      ∀ maxLines, ∃ parts, MarkParts text parts ∧
        blockLines measure width maxLines text =
          (parts.flatMap (wrap measure width)).take (max maxLines 1) := by
  have found := piecesOf_pieces text
  obtain ⟨solid, characters⟩ := found.solid
  obtain ⟨groups, all, cut, filled⟩ := exists_groups measure width solid
  have lines : wrap measure width text = linesOf groups := by
    rw [wrap, if_neg (by omega), filled]
  rw [← all] at found solid characters
  refine ⟨⟨groups, found, cut, lines, ?_, ?_⟩, ?_, ?_, ?_⟩
  · intro others otherFound other
    exact other.unique cut (otherFound.unique found)
  · intro group member long
    exact cut.fits member long
  · intro line member
    rw [lines] at member
    rcases mem_of_mem_linesOf member with rfl | ⟨group, inGroups, rfl⟩
    · exact .of_spaceless List.not_mem_nil
    · exact spaced_lineOf fun piece inLine =>
        solid piece (List.mem_flatten_of_mem inGroups inLine)
  · rw [lines, filter_linesOf solid, characters]
  · intro maxLines
    exact ⟨paragraphs text, markParts_paragraphs text, rfl⟩

/-- A line that ends at a hyphen, one of two pieces, and two spaces that become none. -/
theorem wrap_greedy_of_hyphens :
    let measure := fun line : List Char => 10 * line.length
    let text := "a-well-known  fact".toList
    0 < 70 ∧
      wrap measure 70 text = ["a-well-".toList, "known".toList, "fact".toList] ∧
      (∃ groups, PiecesOf text groups.flatten ∧ CutWhere (Overflows measure 70) groups ∧
        linesOf groups = ["a-well-".toList, "known".toList, "fact".toList]) ∧
      "a-well-knownfact".toList = text.filter (· ≠ ' ') := by
  intro measure text
  have lines : wrap measure 70 text = ["a-well-".toList, "known".toList, "fact".toList] := by
    decide
  obtain ⟨⟨groups, found, cut, cutLines, -⟩, -, characters, -⟩ :=
    wrap_greedy measure (by decide : 0 < 70) text
  rw [lines] at cutLines characters
  exact ⟨by decide, lines, ⟨groups, found, cut, cutLines.symm⟩, characters⟩

end LabelPress.Text
