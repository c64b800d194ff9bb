import LabelPress.Proofs.Png.RoundTrip

/-!
# A file keeps every pixel

Every picture with pixels can be written, and its file begins with the signature.  Reading has two
bounds, one for the bytes of the picture and one for those of a row, which are the same number
(`maxBytes`).  The main statement (`encode_keeps_pixels`) is that a picture comes back with all its
bytes exactly if it stays within the first bound, and its sides exactly if its rows stay within the
second.
-/

namespace LabelPress.Png

theorem dimensions_of_body {bytes rest : List UInt8} (found : body bytes = .ok rest) :
    dimensions bytes =
      match opening? rest with
      | some opening => .ok (opening.header.width, opening.header.height)
      | none => .error .damaged := by
  rw [dimensions, found]
  rfl

section Files

variable {picture : Picture}

theorem dimensions_file
    (header : (headerOf picture).WellFormed)
    (rowFits : picture.width * picture.format.pixelBytes ≤ maxBytes) :
    dimensions (file picture) = .ok (picture.width, picture.height) := by
  rw [dimensions_of_body (body_file picture), opening?_file header rowFits]
  rfl

theorem dimensions_file_of_wide
    (header : (headerOf picture).WellFormed)
    (wide : maxBytes < picture.width * picture.format.pixelBytes) :
    dimensions (file picture) = .error .damaged := by
  rw [dimensions_of_body (body_file picture), opening?_file_of_wide header wide]

theorem signature_prefix_file (picture : Picture) : signature <+: file picture :=
  List.prefix_append _ _

/-- The head of every picture whose sides are positive words can stand in a file. -/
theorem header_wellFormed
    (widthPos : 0 < picture.width)
    (heightPos : 0 < picture.height)
    (widthLt : picture.width < 2 ^ 32)
    (heightLt : picture.height < 2 ^ 32) :
    (headerOf picture).WellFormed where
  widthPos := widthPos
  width := widthLt
  heightPos := heightPos
  height := heightLt
  depth := depth_headerOf picture

/--
A file keeps every pixel of a picture, whatever its format is.  The picture is written to a file
that begins with the signature.  If it has at most `maxBytes` bytes, reading the file gives it back,
with its sides, its format and every byte, and its sides are read alone as well.  A larger picture
counts as damaged, and so do its sides if one of its rows has more than `maxBytes` bytes.
-/
theorem encode_keeps_pixels
    (wellFormed : picture.WellFormed)
    (widthPos : 0 < picture.width)
    (heightPos : 0 < picture.height)
    (widthLt : picture.width < 2 ^ 32)
    (heightLt : picture.height < 2 ^ 32)
    (countable : picture.byteCount < 2 ^ 64) :
    ∃ bytes,
      encode picture = .ok bytes ∧ signature <+: bytes ∧
        (picture.byteCount ≤ maxBytes →
          decode bytes = .ok picture ∧ dimensions bytes = .ok (picture.width, picture.height)) ∧
        (maxBytes < picture.byteCount →
          decode bytes = .error .damaged ∧
            dimensions bytes =
              if picture.width * picture.format.pixelBytes ≤ maxBytes then
                .ok (picture.width, picture.height)
              else .error .damaged) := by
  have header := header_wellFormed widthPos heightPos widthLt heightLt
  refine ⟨file picture, encode_eq_ok wellFormed widthPos heightPos countable,
    signature_prefix_file picture, ?_, ?_⟩
  · intro bytesLe
    have readable : Readable picture := ⟨wellFormed, widthPos, heightPos, bytesLe⟩
    exact ⟨decode_file readable, dimensions_file header readable.rowBytes_le⟩
  · intro large
    refine ⟨decode_file_of_large header large, ?_⟩
    split
    · next rowFits =>
        exact dimensions_file header rowFits
    · next wide =>
        exact dimensions_file_of_wide header (Nat.lt_of_not_le wide)

/-- Two pixels in colour, with samples of two bytes. -/
theorem encode_keeps_pixels_of_colour :
    let picture : Picture :=
      ⟨2, 1, ⟨.rgb, .sixteen⟩, #[1, 2, 3, 4, 5, 6, 255, 254, 253, 252, 251, 250]⟩
    (picture.WellFormed ∧ 0 < picture.width ∧ 0 < picture.height ∧ picture.width < 2 ^ 32 ∧
        picture.height < 2 ^ 32 ∧ picture.byteCount < 2 ^ 64 ∧ picture.byteCount ≤ maxBytes) ∧
      ∃ bytes,
        encode picture = .ok bytes ∧ signature <+: bytes ∧ decode bytes = .ok picture ∧
          dimensions bytes = .ok (2, 1) := by
  intro picture
  have wellFormed : picture.WellFormed := rfl
  have countable : picture.byteCount < 2 ^ 64 := by
    decide
  have bytesLe : picture.byteCount ≤ maxBytes := by
    decide
  obtain ⟨bytes, written, signed, kept, -⟩ :=
    encode_keeps_pixels wellFormed (by decide) (by decide) (by decide) (by decide) countable
  exact ⟨⟨wellFormed, by decide, by decide, by decide, by decide, countable, bytesLe⟩,
    bytes, written, signed, kept bytesLe⟩

/-- A row of one grey pixel more than is read: the picture has a file that counts as damaged. -/
theorem encode_loses_wide_picture :
    let picture : Picture := .ofFn 536870913 1 ⟨.grey, .eight⟩ fun _ _ _ => 0
    picture.WellFormed ∧ 0 < picture.width ∧ 0 < picture.height ∧
      ∃ bytes,
        encode picture = .ok bytes ∧ decode bytes = .error .damaged ∧
          dimensions bytes = .error .damaged := by
  intro picture
  have pixelBytes : picture.format.pixelBytes = 1 := rfl
  have rowBytes : picture.width * picture.format.pixelBytes = 536870913 := by
    rw [pixelBytes]
    exact Nat.mul_one 536870913
  have needed : picture.byteCount = 536870913 := by
    rw [Picture.byteCount, Nat.mul_right_comm, rowBytes]
    exact Nat.mul_one 536870913
  have limit : maxBytes < 536870913 := by
    decide
  have wellFormed : picture.WellFormed := Picture.wellFormed_ofFn _ _ _ _
  have header : (headerOf picture).WellFormed :=
    header_wellFormed (by decide) (by decide) (by decide) (by decide)
  refine ⟨wellFormed, by decide, by decide, file picture, ?_, ?_, ?_⟩
  · apply encode_eq_ok wellFormed (by decide) (by decide)
    rw [needed]
    decide
  · apply decode_file_of_large header
    rw [needed]
    exact limit
  · apply dimensions_file_of_wide header
    rw [rowBytes]
    exact limit

end Files

end LabelPress.Png
