import LabelPress.Png.Header

/-!
# What stands before the pixels

Between the head and the pixels of a file there may be a palette, a note on what is transparent, and
chunks that a picture can be shown without.  Of these, damaged ones are passed over, but not those
that announce a frame of an animation, and not a colour space or a background that make no sense.
-/

namespace LabelPress.Png

/-- What is said about colours before the pixels. -/
structure Colors where
  /-- The red, green and blue parts of the palette, one colour after the other. -/
  palette : Option (List UInt8) := none
  /-- The opacity of the colours of the palette, or the samples of a transparent pixel. -/
  transparency : Option (List UInt8) := none
  deriving DecidableEq, Repr

/-- Whether a note on what is transparent can be used. -/
def Colors.accepts (colors : Colors) (header : Header) (note : List UInt8) : Bool :=
  colors.transparency.isNone &&
    match header.color with
    | .grey => 2 ≤ note.length
    | .rgb => 6 ≤ note.length
    | .indexed => colors.palette.isSome
    | .greyAlpha | .rgba => false

/-- Whether the numbers of a colour space can be used: its samples are red, green and blue. -/
def isColorSpace : List UInt8 → Bool
  | [_, _, matrix, range] => matrix = 0 ∧ range ≤ 1
  | _ => false

/--
Whether a frame is the picture itself: it has the given number and the sides of the picture, stands
in its corner, and says in a known way what is done with it before and after it is shown.
-/
def isWholeFrame (header : Header) (number : Nat) (data : List UInt8) : Bool :=
  match data.drop 24 with
  | [disposal, blending] =>
    BigEndian.number (data.take 4) = number ∧
      BigEndian.number ((data.drop 4).take 4) = header.width ∧
      BigEndian.number ((data.drop 8).take 4) = header.height ∧
      BigEndian.number ((data.drop 12).take 8) = 0 ∧ disposal ≤ 2 ∧ blending ≤ 1
  | _ => false

/-- What has been said before the pixels. -/
structure Preface where
  /-- What has been said about colours. -/
  colors : Colors := {}
  /-- The colour space has been named. -/
  namesColorSpace : Bool := false
  /-- The number of frames that have been announced. -/
  frames : Nat := 0
  deriving DecidableEq, Repr

namespace Preface

/-- Takes notice of a chunk before the pixels, of a size that its kind admits. -/
def add? (preface : Preface) (header : Header) (chunk : Chunk) : Option Preface :=
  let colors := preface.colors
  if chunk.kind = Chunk.palette then
    if colors.palette.isNone then
      some { preface with colors := { colors with palette := some chunk.data } }
    else none
  else if chunk.kind = Chunk.transparency then
    if colors.accepts header chunk.data then
      some { preface with colors := { colors with transparency := some chunk.data } }
    else some preface
  else if chunk.kind = Chunk.background then
    if header.color = .indexed ∧ colors.palette.isNone then none else some preface
  else if chunk.kind = Chunk.colorSpace then
    if preface.namesColorSpace ∨ colors.palette.isSome then some preface
    else if isColorSpace chunk.data then some { preface with namesColorSpace := true }
    else none
  else if chunk.kind = Chunk.frame then
    if isWholeFrame header preface.frames chunk.data then
      some { preface with frames := preface.frames + 1 }
    else none
  else if Chunk.isAncillary chunk.kind then some preface
  else none

/-- Whether a chunk of a kind that may have the wrong size or check value is passed over then. -/
def mayBePassedOver (kind : List UInt8) : Bool :=
  Chunk.isAncillary kind ∧ kind ≠ Chunk.frame

/-- Takes notice of a chunk that has been found before the pixels, or passes over it. -/
def take? (preface : Preface) (header : Header) (found : Chunk.Found) : Option Preface :=
  let kind := found.chunk.kind
  if Chunk.admits kind found.chunk.data.length then
    if found.sound then preface.add? header found.chunk
    else if Chunk.isAncillary kind then some preface
    else none
  else if mayBePassedOver kind then some preface
  else none

/--
Whether the pixels begin with the chunk at the head of some bytes; those of a frame may only follow
what announces it.
-/
def pixelsBegin? (preface : Preface) (bytes : List UInt8) : Option Bool :=
  match Chunk.kind? bytes with
  | none => none
  | some kind =>
    if kind = Chunk.pixels then some true
    else if kind = Chunk.framePixels then
      if 0 < preface.frames ∧ 4 ≤ BigEndian.number (bytes.take 4) then some true else none
    else some false

/-- Reads the chunks up to the pixels. -/
def read? (preface : Preface) (header : Header) (bytes : List UInt8) :
    Option (Preface × List UInt8) :=
  match preface.pixelsBegin? bytes with
  | none => none
  | some true => some (preface, bytes)
  | some false =>
    match _found : Chunk.next? bytes with
    | none => none
    | some found =>
      match preface.take? header found with
      | none => none
      | some preface => read? preface header found.rest
termination_by bytes.length
decreasing_by exact Chunk.length_rest_of_next? _found

end Preface

/-- What stands before the pixels of a file, and the bytes from the pixels on. -/
structure Opening where
  /-- The head. -/
  header : Header
  /-- What has been said before the pixels. -/
  preface : Preface
  /-- The bytes from the pixels on. -/
  rest : List UInt8
  deriving DecidableEq, Repr

namespace Opening

/-- Reads the bytes behind the signature of a file up to the pixels. -/
def read? (bytes : List UInt8) : Option Opening :=
  match Chunk.next? bytes with
  | none => none
  | some found =>
    if found.sound ∧ found.chunk.kind = Chunk.header then
      match Header.ofBytes? found.chunk.data with
      | none => none
      | some header =>
        match Preface.read? {} header found.rest with
        | none => none
        | some (preface, rest) => some ⟨header, preface, rest⟩
    else none

/-- The compressed pixels, in the parts in which they are stored. -/
def parts? (opening : Opening) : Option (List (List UInt8)) :=
  match Chunk.kind? opening.rest with
  | none => none
  | some kind => Chunk.pixelParts? kind opening.preface.frames [] opening.rest

end Opening

end LabelPress.Png
