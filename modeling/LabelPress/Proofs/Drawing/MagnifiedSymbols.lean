import LabelPress.Drawing
import LabelPress.Proofs.Drawing.CheckedShapes

/-!
# Magnified QR symbols

The modules of a symbol stand in a row, one line behind the other.  Each dark one is filled as a
square of dots at the place that follows from its number.  The squares lie side by side: the dot at
a column and a row belongs to the module whose column and row are the quotients by the side of a
square, and is ink exactly if this module is dark (`magnify_shows`).

This holds for every square of at most 177 modules on a side.  The main statement
(`qrStamp_magnifies`) says it of the symbols of data as well, which are such squares.
-/

namespace LabelPress.Checked

/-- A symbol without modules has a mask without dots. -/
theorem magnify_of_empty {modules : Grid Bool} (square : Qr.IsSquare 0 modules)
    (magnification : Nat) :
    magnify modules magnification = some (Qr.magnify modules magnification) := by
  have noModules : modules.cells = #[] := by
    apply Array.eq_empty_of_size_eq_zero
    rw [modules.size_cells, square.1, Nat.zero_mul]
  have noDots : Mask.blank 0 0 = Qr.magnify modules magnification := by
    refine Grid.eq_of_cell? ?_ ?_ ?_
    · rw [Qr.magnify, square.1, Nat.zero_mul]
      rfl
    · rw [Qr.magnify, square.2, Nat.zero_mul]
      rfl
    · intro x y column
      rw [Qr.magnify, square.1, Nat.zero_mul] at column
      cases column
  rw [magnify, square.1, noModules, ← noDots, bind_of_eq_some (unsigned_of_lt (by decide)),
    Nat.zero_mul, bind_of_eq_some (unsigned_of_lt (by decide)),
    bind_of_eq_some (blank_of_lt (by decide) (by decide))]
  rfl

/-- A mask shows the modules of a square, each as a square of `scale` dots on a side. -/
structure Shows (modules : Grid Bool) (count scale : Nat) (mask : Mask) : Prop where
  sides : HasSides (count * scale) (count * scale) mask
  dots : ∀ x y, x < count * scale → y < count * scale →
    mask.cell? x y = some (if modules.cell? (x / scale) (y / scale) = some true then 255 else 0)

/-- Every dot of a magnified symbol shows its module. -/
theorem magnify_shows {modules : Grid Bool} {count magnification : Nat}
    (square : Qr.IsSquare count modules) (countLe : count ≤ 177)
    (magnificationLe : magnification ≤ 10) :
    ∃ mask, magnify modules magnification = some mask ∧
      Qr.magnify modules magnification = mask ∧
      Shows modules count (max magnification 1) mask := by
  have done : magnify modules magnification = some (Qr.magnify modules magnification) := by
    rcases Nat.eq_zero_or_pos count with rfl | countPos
    · exact magnify_of_empty square magnification
    · exact magnify_eq_some countPos countLe square magnificationLe
  refine ⟨Qr.magnify modules magnification, done, rfl, ⟨⟨?_, ?_⟩, ?_⟩⟩
  · rw [Qr.magnify, ← square.1]
    rfl
  · rw [Qr.magnify, ← square.2]
    rfl
  · intro x y column row
    have inked := Mask.cell?_ofInk (fun x y =>
      modules.cellD (x / max magnification 1) (y / max magnification 1) false) column row
    rw [Qr.magnify, square.1, square.2]
    refine inked.trans ?_
    rw [Grid.cellD_eq]
    cases modules.cell? (x / max magnification 1) (y / max magnification 1) with
    | none =>
        rfl
    | some dark =>
        cases dark <;> rfl

/--
Modules are magnified without loss.  A square of at most 177 modules on a side becomes a mask with
as many dots for each module as the magnification says, and at least one; its dots are ink exactly
where the module is dark, and no number leaves its range on the way.  The symbol of data is such a
square, whenever there is one, and its stamp is this mask with the baseline at the lower edge.
-/
theorem qrStamp_magnifies :
    (∀ (modules : Grid Bool) (count magnification : Nat),
        Qr.IsSquare count modules → count ≤ 177 → magnification ≤ 10 →
          ∃ mask, magnify modules magnification = some mask ∧
            Qr.magnify modules magnification = mask ∧
            Shows modules count (max magnification 1) mask) ∧
      ∀ (data : String) (level : QrLevel) (modules : Grid Bool) (magnification : Nat),
        Qr.encode? (Text.encode data.toList) level = some modules → magnification ≤ 10 →
          ∃ count stamp, 0 < count ∧ count ≤ 177 ∧ Qr.IsSquare count modules ∧
            Drawing.qrStamp data level magnification = .ok stamp ∧
            magnify modules magnification = some stamp.mask ∧
            Shows modules count (max magnification 1) stamp.mask ∧
            stamp.baseline = stamp.mask.height := by
  refine ⟨?_, ?_⟩
  · intro modules count magnification square countLe magnificationLe
    exact magnify_shows square countLe magnificationLe
  · intro data level modules magnification encoded magnificationLe
    obtain ⟨count, countPos, countLe, square⟩ := Qr.isSquare_of_encode? encoded
    obtain ⟨mask, done, made, shows⟩ := magnify_shows square countLe magnificationLe
    have stamped : Drawing.qrStamp data level magnification = .ok (.onBottom mask) := by
      rw [Drawing.qrStamp, encoded, ← made]
    exact ⟨count, .onBottom mask, countPos, countLe, square, stamped, done, shows, rfl⟩

/-- Three modules on a side in two sizes, and the symbol of a digit. -/
theorem qrStamp_magnifies_small :
    let corner : Grid Bool := Grid.ofFn 3 3 fun x y => x.val = 0 || y.val = 2
    (Qr.IsSquare 3 corner ∧ 3 ≤ 177 ∧ 0 ≤ 10 ∧ 4 ≤ 10) ∧
      (∃ mask, magnify corner 0 = some mask ∧ mask.width = 3 ∧ mask.cell? 1 1 = some 0 ∧
        mask.cell? 1 2 = some 255) ∧
      (∃ mask, magnify corner 4 = some mask ∧ mask.width = 12 ∧ mask.cell? 3 7 = some 255 ∧
        mask.cell? 4 7 = some 0 ∧ mask.cell? 4 8 = some 255) ∧
      ∃ modules stamp, Qr.encode? (Text.encode "7".toList) .high = some modules ∧
        Drawing.qrStamp "7" .high 10 = .ok stamp ∧ stamp.baseline = stamp.mask.height := by
  intro corner
  have square : Qr.IsSquare 3 corner := ⟨rfl, rfl⟩
  obtain ⟨squares, symbols⟩ := qrStamp_magnifies
  obtain ⟨single, singleDone, -, ⟨singleWidth, -⟩, singleDots⟩ :=
    squares corner 3 0 square (by decide) (by decide)
  obtain ⟨large, largeDone, -, ⟨largeWidth, -⟩, largeDots⟩ :=
    squares corner 3 4 square (by decide) (by decide)
  have holds : (Qr.choose? .high ((Text.encode "7".toList).map UInt8.toNat)).isSome = true := by
    with_unfolding_all rfl
  obtain ⟨choice, chosen⟩ := Option.isSome_iff_exists.mp holds
  have encoded : ∃ modules, Qr.encode? (Text.encode "7".toList) .high = some modules := by
    rw [Qr.encode?, chosen]
    exact ⟨_, rfl⟩
  obtain ⟨modules, encoded⟩ := encoded
  obtain ⟨-, stamp, -, -, -, stamped, -, -, baseline⟩ :=
    symbols "7" .high modules 10 encoded (by decide)
  refine ⟨⟨square, by decide, by decide, by decide⟩, ⟨single, singleDone, singleWidth, ?_, ?_⟩,
    ⟨large, largeDone, largeWidth, ?_, ?_, ?_⟩, ⟨modules, stamp, encoded, stamped, baseline⟩⟩
  · exact (singleDots 1 1 (by decide) (by decide)).trans (by decide)
  · exact (singleDots 1 2 (by decide) (by decide)).trans (by decide)
  · exact (largeDots 3 7 (by decide) (by decide)).trans (by decide)
  · exact (largeDots 4 7 (by decide) (by decide)).trans (by decide)
  · exact (largeDots 4 8 (by decide) (by decide)).trans (by decide)

end LabelPress.Checked
