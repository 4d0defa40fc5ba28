import Raster.Pixmap
import Raster.PixelType.Name
import Raster.Decimal.Shortest

/- Descriptions of a pixmap in words.

   `Pixmap.info` is a table of its properties, `Pixmap.summary` one line. -/
namespace Raster

namespace Decimal

/-- Numbers in a summary: positional from `1e-4` up to `1e16`, ties to the greater digit. -/
def plainStyle : Style := ⟨-4, 15, false, true⟩

def summaryText (x : Float32) : String :=
  match Parts.ofFloat32 x with
  | .notANumber => "NaN"
  | .infinite negative => if negative then "-inf" else "inf"
  | .finite negative b => String.ofList (plainStyle.numeral negative b).chars

end Decimal

namespace Orientation

/-- The flags that are set. -/
def flagNames (o : Orientation) : List String :=
  (if o.swapAxes then ["AXES_SWAP"] else []) ++ (if o.mirrorX then ["X_SWAP"] else []) ++
    (if o.mirrorY then ["Y_SWAP"] else [])

def summary (o : Orientation) : String :=
  let flags := if o = identity then "0x0" else " | ".intercalate o.flagNames
  s!"Orientation({flags})"

end Orientation

namespace Pixmap

def info (p : Pixmap) : String :=
  let o := p.orientation
  let flag (on : Bool) : Nat := on.toNat
  let lines := [
    "Pixmap info",
    "------------",
    s!"Size\t{p.width}x{p.height}",
    s!"BPP\t{p.bpp}",
    s!"BPR\t{p.stride}",
    s!"Pixel\t{p.pixelType.name} ({p.pixelType.id})",
    s!"Offset\t{p.offset} (only unaligned pixel types)",
    s!"Flags\taxes_swap={flag o.swapAxes} x_swap={flag o.mirrorX} y_swap={flag o.mirrorY}"]
  "\n".intercalate (lines ++ (p.gamma.map Gamma.text).toList)

def summary (p : Pixmap) : String :=
  let gamma := match p.gamma with
    | some g => s!"Some({Decimal.summaryText g.exponent})"
    | none => "None"
  let fields := [
    s!"w: {p.width}", s!"h: {p.height}", s!"bytes_per_row: {p.stride}", s!"offset: {p.offset}",
    s!"pixel_type: {p.pixelType.label}", s!"orientation: {p.orientation.summary}",
    s!"gamma: {gamma}", ".."]
  "Pixmap \x7b " ++ ", ".intercalate fields ++ " \x7d"

end Pixmap

end Raster
