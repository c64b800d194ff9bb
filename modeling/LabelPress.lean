import LabelPress.Main
import LabelPress.Proofs.Code128.NormalMode
import LabelPress.Proofs.Code128.AutomaticMode
import LabelPress.Proofs.Code128.Plans
import LabelPress.Proofs.Code128.Symbols
import LabelPress.Proofs.Code128.Lengths
import LabelPress.Proofs.Markup.Resynchronisation
import LabelPress.Proofs.Markup.HexEscape
import LabelPress.Proofs.Markup.EscapeFaults
import LabelPress.Proofs.Markup.FieldData
import LabelPress.Proofs.Markup.FieldOrder
import LabelPress.Proofs.Markup.Isolation
import LabelPress.Proofs.Markup.LabelHome
import LabelPress.Proofs.Markup.Writing
import LabelPress.Proofs.Markup.CompressedBitmap
import LabelPress.Proofs.Markup.PrintedBitmap
import LabelPress.Proofs.Drawing.Painting
import LabelPress.Proofs.Drawing.Safety
import LabelPress.Proofs.Drawing.Anchors
import LabelPress.Proofs.Drawing.Bars
import LabelPress.Proofs.Drawing.PaintOrder
import LabelPress.Proofs.Drawing.Outlines
import LabelPress.Proofs.Drawing.ClippedMasks
import LabelPress.Proofs.Drawing.MagnifiedSymbols
import LabelPress.Proofs.Ean13.Reading
import LabelPress.Proofs.Ean13.CheckDigit
import LabelPress.Proofs.Picture.Turning
import LabelPress.Proofs.Picture.Composition
import LabelPress.Proofs.Png.Lossless
import LabelPress.Proofs.Png.SizeCheck
import LabelPress.Proofs.Text.Wrapping
import LabelPress.Proofs.Text.FewestLines
import LabelPress.Proofs.CommandLine.Resolution
import LabelPress.Proofs.Configuration.Shape
import LabelPress.Proofs.Run.Turned
import LabelPress.Proofs.Run.Delivery
