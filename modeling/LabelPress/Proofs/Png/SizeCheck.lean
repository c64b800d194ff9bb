import LabelPress.Png
import Mathlib.Tactic.ByContra

/-!
# The size check of written pictures

A picture is refused if it has no pixels, and if it has another number of bytes than its pixels
need.  The needed bytes are counted with 64 bits, so that a picture passes the check if it lacks a
multiple of 2 ^ 64 bytes (`LacksRound`); the writer is handed that picture and breaks off.  The main
statement (`encode_check_exact_iff`) is that these pictures are the only ones on which the check is
wrong.
-/

namespace LabelPress.Png

/-- The picture is refused for the number of its bytes. -/
def Refuses (picture : Picture) : Prop :=
  ∃ expected found, encode picture = .error (.byteCount expected found)

/-- The picture lacks bytes, in a number that 64 bits do not count. -/
def LacksRound (picture : Picture) : Prop :=
  picture.bytes.size < picture.byteCount ∧
    0x10000000000000000 ∣ picture.byteCount - picture.bytes.size

section Checks

variable {picture : Picture}

theorem encode_of_pixels
    (widthPos : 0 < picture.width)
    (heightPos : 0 < picture.height) :
    encode picture =
      if picture.bytes.size ≠ neededBytes picture then
        .error (.byteCount (neededBytes picture) picture.bytes.size)
      else write picture := by
  rw [encode, if_neg (by omega)]

theorem encode_eq_noPixels_iff :
    encode picture = .error (.noPixels picture.width picture.height) ↔
      picture.width = 0 ∨ picture.height = 0 := by
  constructor
  · intro refused
    by_contra pixels
    rw [encode, if_neg pixels] at refused
    split at refused
    · cases refused
    · rw [write] at refused
      split at refused <;> cases refused
  · intro noPixels
    rw [encode, if_pos noPixels]

theorem refuses_iff
    (widthPos : 0 < picture.width)
    (heightPos : 0 < picture.height) :
    Refuses picture ↔ picture.bytes.size ≠ neededBytes picture := by
  rw [Refuses, encode_of_pixels widthPos heightPos]
  constructor
  · rintro ⟨expected, found, refused⟩ counted
    rw [if_neg (not_not_intro counted), write] at refused
    split at refused <;> cases refused
  · intro other
    exact ⟨_, _, if_pos other⟩

/-- The check finds the number it counts, and it is the right one or short of whole rounds. -/
theorem size_eq_neededBytes_iff
    (countable : picture.bytes.size < 0x10000000000000000) :
    picture.bytes.size = neededBytes picture ↔
      picture.WellFormed ∨ LacksRound picture := by
  rw [neededBytes, Picture.WellFormed, LacksRound]
  omega

theorem LacksRound.not_wellFormed
    (lacks : LacksRound picture) :
    ¬ picture.WellFormed :=
  Nat.ne_of_lt lacks.1

/-- Only pictures whose bytes are more than 64 bits count can lack a round. -/
theorem LacksRound.le_byteCount
    (lacks : LacksRound picture) :
    0x10000000000000000 ≤ picture.byteCount := by
  obtain ⟨short, rounds⟩ := lacks
  -- What is missing is more than nothing, so it is one round or more.
  have least := Nat.le_of_dvd (Nat.sub_pos_of_lt short) rounds
  exact Nat.le_trans least (Nat.sub_le _ _)

theorem encode_eq_file_iff
    (widthPos : 0 < picture.width)
    (heightPos : 0 < picture.height)
    (countable : picture.bytes.size < 0x10000000000000000) :
    encode picture = .ok (file picture) ↔ picture.WellFormed := by
  rw [encode_of_pixels widthPos heightPos]
  constructor
  · intro written
    split at written
    · cases written
    · rw [write] at written
      split at written
      · assumption
      · cases written
  · intro wellFormed
    have counted := (size_eq_neededBytes_iff countable).mpr (Or.inl wellFormed)
    rw [if_neg (not_not_intro counted), write, if_pos wellFormed]

/-- The writer breaks off on the pictures that pass the check without having all their bytes. -/
theorem encode_eq_brokenOff_iff
    (widthPos : 0 < picture.width)
    (heightPos : 0 < picture.height)
    (countable : picture.bytes.size < 0x10000000000000000) :
    encode picture = .error .brokenOff ↔ LacksRound picture := by
  have counted := size_eq_neededBytes_iff countable
  rw [encode_of_pixels widthPos heightPos]
  constructor
  · intro broken
    split at broken
    · cases broken
    · rename_i passes
      rw [write] at broken
      split at broken
      · cases broken
      · rename_i short
        exact (counted.mp (not_not.mp passes)).resolve_left short
  · intro lacks
    rw [if_neg (not_not_intro (counted.mpr (Or.inr lacks))), write, if_neg lacks.not_wellFormed]

theorem refuses_right_iff
    (widthPos : 0 < picture.width)
    (heightPos : 0 < picture.height)
    (countable : picture.bytes.size < 0x10000000000000000) :
    (Refuses picture ↔ ¬ picture.WellFormed) ↔ ¬ LacksRound picture := by
  have counted := size_eq_neededBytes_iff countable
  rw [refuses_iff widthPos heightPos, not_iff_not, counted]
  constructor
  · intro right lacks
    exact lacks.not_wellFormed (right.mp (Or.inr lacks))
  · intro complete
    exact or_iff_left complete

/--
The size check is exact but for pictures that lack a multiple of 2 ^ 64 bytes.  A picture without
pixels is refused for that.  Any other is refused for the number of its bytes exactly if that number
is not the one that it needs, unless the picture lacks whole rounds of the count, and only then is
the writer handed a picture that makes it break off.  A picture with all its bytes is written.  No
picture that needs fewer than 2 ^ 64 bytes lacks a round.
-/
theorem encode_check_exact_iff
    (countable : picture.bytes.size < 0x10000000000000000) :
    (encode picture = .error (.noPixels picture.width picture.height) ↔
        picture.width = 0 ∨ picture.height = 0) ∧
      (0 < picture.width → 0 < picture.height →
        ((Refuses picture ↔ ¬ picture.WellFormed) ↔ ¬ LacksRound picture) ∧
          (encode picture = .ok (file picture) ↔ picture.WellFormed) ∧
          (encode picture = .error .brokenOff ↔ LacksRound picture)) ∧
      (LacksRound picture → 0x10000000000000000 ≤ picture.byteCount) := by
  refine ⟨encode_eq_noPixels_iff, ?_, LacksRound.le_byteCount⟩
  intro widthPos heightPos
  exact ⟨refuses_right_iff widthPos heightPos countable,
    encode_eq_file_iff widthPos heightPos countable,
    encode_eq_brokenOff_iff widthPos heightPos countable⟩

/-- A picture of two grey pixels with one byte is refused. -/
theorem refuses_cut_row :
    (#[7] : Array UInt8).size < 0x10000000000000000 ∧ Refuses ⟨2, 1, ⟨.grey, .eight⟩, #[7]⟩ := by
  have countable : (#[7] : Array UInt8).size < 0x10000000000000000 := by decide
  have few : (⟨2, 1, ⟨.grey, .eight⟩, #[7]⟩ : Picture).byteCount < 0x10000000000000000 := by decide
  have check := @encode_check_exact_iff ⟨2, 1, ⟨.grey, .eight⟩, #[7]⟩ countable
  have right := (check.2.1 (by decide) (by decide)).1.mpr fun lacks =>
    Nat.not_le.mpr few (check.2.2 lacks)
  exact ⟨countable, right.mpr (by decide)⟩

/-- A picture of 2 ^ 62 pixels of four bytes lacks all of them, and the writer is handed it. -/
theorem encode_round_of_bytes :
    let picture : Picture := ⟨0x80000000, 0x80000000, ⟨.rgba, .eight⟩, #[]⟩
    picture.byteCount = 0x10000000000000000 ∧ ¬ picture.WellFormed ∧ ¬ Refuses picture ∧
      encode picture = .error .brokenOff := by
  intro picture
  have round : picture.byteCount = 0x10000000000000000 := by decide
  have short : ¬ picture.WellFormed := by decide
  have counted : picture.bytes.size = neededBytes picture := by decide
  have broken : encode picture = .error .brokenOff := by
    rw [encode_of_pixels (by decide) (by decide), if_neg (not_not_intro counted), write,
      if_neg short]
  refine ⟨round, short, ?_, broken⟩
  rintro ⟨expected, found, refused⟩
  rw [broken] at refused
  cases refused

end Checks

end LabelPress.Png
