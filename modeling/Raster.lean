import Raster.Pixmap.View
import Raster.Pixmap.Describe
import Raster.Scene.Draw
import Raster.Scene.Demo
import Raster.Scene.Decode
import Raster.Proofs.Bits
import Raster.Proofs.Outcome
import Raster.Proofs.BufferSize
import Raster.Proofs.Layout
import Raster.Proofs.Drawing
import Raster.Proofs.WellFormed
import Raster.Proofs.Workspace
import Raster.Proofs.Image
import Raster.Proofs.Runs
import Raster.Proofs.Rounding
import Raster.Proofs.Crossing
import Raster.Proofs.Clipping
import Raster.Proofs.Line
import Raster.Proofs.Encode
import Raster.Proofs.PixelAccess
import Raster.Proofs.Views
import Raster.Proofs.Fill
import Raster.Proofs.Inks
import Raster.Proofs.QuadrantWalk
import Raster.Proofs.Curves
import Raster.Proofs.Primitives
import Raster.Proofs.Blit
import Raster.Proofs.BlitClip
import Raster.Proofs.BlitEmpty
import Raster.Proofs.SoftLine
import Raster.Proofs.Checker
import Raster.Proofs.Rendering
import Raster.Proofs.BlitChecked
import Raster.Proofs.Numerals
import Raster.Proofs.JsonRoundTrip
import Raster.Proofs.NumberSize
import Raster.Proofs.ShortestDecimal
import Raster.Proofs.JsonRecord
import Raster.Proofs.SceneRoundTrip
import Raster.Proofs.EllipseShape
import Raster.Proofs.EllipseOrientation
import Raster.Proofs.CircleShape
import Raster.Proofs.CircleRows
import Raster.Proofs.LineTrace
import Raster.Proofs.LineShape
import Raster.Proofs.ClipPath
import Raster.Proofs.LineAccuracy
import Raster.Proofs.EllipseRim
import Raster.Proofs.Rectangles
import Raster.Proofs.Construction
import Raster.Proofs.ExactFloat
import Raster.Proofs.PolygonBox
import Raster.Proofs.Mixing
import Raster.Proofs.Coverage
import Raster.Proofs.SoftRectangles
import Raster.Proofs.SoftTrace
import Raster.Proofs.Copies
import Raster.Proofs.Conversion
import Raster.Proofs.SoftAccuracy
import Raster.Proofs.Comparison
import Raster.Proofs.FillPixels
import Raster.Proofs.Channels
import Raster.Proofs.ColorRoundTrip
import Raster.Proofs.Fading
import Raster.Proofs.SpanParity
import Raster.Proofs.CheckerCells
