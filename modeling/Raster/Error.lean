import Raster.Fault
import Raster.PixelType
import Raster.Text.Quoted

/- Refusals.

   An `Error` is the cause for which an operation refuses its arguments, and
   `Error.message` its text. Drawing refuses nothing: what lies outside of a pixmap is
   cut off. An operation that may refuse or fault answers in `Except Failure`. -/
namespace Raster

inductive Error where
  | noSuchPixelType (id : UInt32)
  | noSuchPixelTypeName (name : String)
  /-- Pixels of the type have no size. -/
  | notAllocatable (type : PixelType)
  | tooLarge (width height : UInt32) (type : PixelType)
  | strideTooSmall (stride min : Nat)
  | dataTooSmall (size needed : Nat)
  /-- A view reaches beyond the pixmap it is taken from, in user sizes. -/
  | outsideParent (x y : Int32) (width height parentWidth parentHeight : UInt32)
  /-- A rectangle with ordered corners does not lie inside the source or its copy not inside the
  destination. -/
  | doesNotFit (x0 y0 x1 y1 : Int32)
  | unreadablePath (path : String)
  | malformedScene
  deriving DecidableEq, Repr

namespace Error

def message : Error → String
  | noSuchPixelType id => s!"invalid pixel type id {id}"
  | noSuchPixelTypeName name => s!"unknown pixel type name {Text.quoted name}"
  | notAllocatable type => s!"pixel type {type.name} cannot be allocated"
  | tooLarge width height type => s!"pixmap {width}x{height} of {type.name} is too large"
  | strideTooSmall stride min =>
    s!"stride {stride} is smaller than the {min} bytes needed per row"
  | dataTooSmall size needed => s!"buffer holds {size} bytes, {needed} needed"
  | outsideParent x y width height parentWidth parentHeight =>
    s!"sub-pixmap {x},{y} {width}x{height} is outside of the {parentWidth}x{parentHeight} parent"
  | doesNotFit x0 y0 x1 y1 => s!"blit rectangle {x0},{y0}-{x1},{y1} does not fit"
  | unreadablePath path => s!"failed to read or write {path}"
  | malformedScene => "invalid scene description"

end Error

/-- Why an operation that may refuse has no answer. -/
inductive Failure where
  | error (e : Error)
  | fault (f : Fault)
  deriving DecidableEq, Repr

instance : MonadLift (Except Fault) (Except Failure) where
  monadLift x := x.mapError .fault

/-- Refuses for the cause `e`. -/
def refuse {α : Type} (e : Error) : Except Failure α := .error (.error e)

end Raster
