import Raster.Json.Number
import Raster.Json.Parser
import Raster.PixelType.Name
import Raster.Scene.Encode

/- Scenes from JSON.

   A scene or a shape is an object of its fields in any order, or an array of them in
   order of declaration; a shape in an array begins with its tag. A field may not be
   given twice, others than the known ones are passed over. What is passed over in a
   scene may be any JSON; a shape must be sound throughout: its strings stand for texts,
   its numbers have values and it does not nest too deeply. These are the rules that the
   JSON library documents for records and for variants with a tag, whose decoders it
   derives from their declarations. -/
namespace Raster

namespace Json

/-! Single values. -/

/-- An integer in some range. -/
def asInt? (b : Bounds) : Json → Option Int
  | number n => do
    let v ← (← n.number?).int?
    if b.Holds v then some v else none
  | _ => none

def asUInt32? (v : Json) : Option UInt32 := (asInt? .uint32 v).map fun n => .ofNat n.toNat

def asInt32? (v : Json) : Option Int32 := (asInt? .int32 v).map .ofInt

def asUInt8? (v : Json) : Option UInt8 := (asInt? ⟨0, 255⟩ v).map fun n => .ofNat n.toNat

def asFloat32? : Json → Option Float32
  | number n => n.number?.map Number.toFloat32
  | _ => none

def asBool? : Json → Option Bool
  | bool b => some b
  | _ => none

def asText? : Json → Option String
  | string s => s
  | _ => none

/-- The items of an array. -/
def asList? : Json → Option (List Json)
  | array items => some items
  | _ => none

def asPoint? (v : Json) : Option Point := do
  match ← v.asList? with
  | [x, y] => return ⟨← x.asInt32?, ← y.asInt32?⟩
  | _ => none

def asPosition? (v : Json) : Option (Float32 × Float32) := do
  match ← v.asList? with
  | [x, y] => return (← x.asFloat32?, ← y.asFloat32?)
  | _ => none

def asRgb? (v : Json) : Option Rgb := do
  match ← v.asList? with
  | [r, g, b] => return ⟨← r.asUInt8?, ← g.asUInt8?, ← b.asUInt8?⟩
  | _ => none

def asPixelType? (v : Json) : Option PixelType := do PixelType.ofName? (← v.asText?)

/-- Null, or a value of some kind. -/
def orNull {α : Type} (f : Json → Option α) : Json → Option (Option α)
  | null => some none
  | v => (f v).map some

/-! Fields. -/

/-- The values of the fields called `name`. -/
def named (name : String) (fields : List (Option String × Json)) : List Json :=
  fields.filterMap fun (k, v) => if k = some name then some v else none

/-- The value of the only field called `name`, if there is one; fails if there are more. -/
def only? (name : String) (fields : List (Option String × Json)) : Option (Option Json) :=
  match named name fields with
  | [] => some none
  | [v] => some (some v)
  | _ => none

/-- The items in order, with `none` in place of those that are left out at the end. -/
def inOrder? : List String → List Json → Option (List (Option Json))
  | [], [] => some []
  | [], _ :: _ => none
  | _ :: names, [] => (inOrder? names []).map (none :: ·)
  | _ :: names, v :: items => (inOrder? names items).map (some v :: ·)

/-- The values of the fields `names` of a record. -/
def arrange? (names : List String) : Json → Option (List (Option Json))
  | object fields => names.mapM (only? · fields)
  | array items => inOrder? names items
  | _ => none

/-- The value of a field that may be missing. -/
def orElse? {α : Type} (f : Json → Option α) (default : α) : Option Json → Option α
  | some v => f v
  | none => some default

/-! Soundness. -/

mutual

/-- Every string stands for a text and every number has a value. -/
def isMeaningful : Json → Bool
  | number n => n.number?.isSome
  | string s => s.isSome
  | array items => areMeaningful items
  | object fields => haveMeaning fields
  | _ => true

def areMeaningful : List Json → Bool
  | [] => true
  | x :: xs => isMeaningful x && areMeaningful xs

def haveMeaning : List (Option String × Json) → Bool
  | [] => true
  | (k, x) :: xs => k.isSome && isMeaningful x && haveMeaning xs

end

/-- A shape may be nested so deeply that the scene around it reaches 127 levels. -/
def isSound (v : Json) : Bool := v.isMeaningful && v.depth ≤ 125

end Json

namespace Shape
open Json

/-- The tag of a shape and the rest of it. -/
def split? : Json → Option (String × Json)
  | object fields => do
    let tag ← (← (← only? "shape" fields)).asText?
    return (tag, object fields)
  | array (tag :: items) => do return (← tag.asText?, array items)
  | _ => none

/-- The values of fields none of which may be missing. -/
def all? (names : List String) (v : Json) : Option (List Json) := do
  (← arrange? names v).mapM id

/-- The constructor of a shape with two points. -/
def twoPoints? (make : Point → Point → Rgb → Shape) (v : Json) : Option Shape := do
  match ← all? ["from", "to", "color"] v with
  | [p, q, c] => return make (← p.asPoint?) (← q.asPoint?) (← c.asRgb?)
  | _ => none

def thickLine? (v : Json) : Option Shape := do
  match ← all? ["from", "to", "radius", "color"] v with
  | [p, q, r, c] => return thickLine (← p.asPoint?) (← q.asPoint?) (← r.asUInt32?) (← c.asRgb?)
  | _ => none

/-- The constructor of a shape with center and radius. -/
def round? (make : Point → Int32 → Rgb → Shape) (v : Json) : Option Shape := do
  match ← all? ["center", "radius", "color"] v with
  | [p, r, c] => return make (← p.asPoint?) (← r.asInt32?) (← c.asRgb?)
  | _ => none

def circleSegments? (v : Json) : Option Shape := do
  match ← all? ["center", "radius", "segments", "color"] v with
  | [p, r, n, c] =>
    return circleSegments (← p.asPoint?) (← r.asInt32?) (← n.asUInt8?) (← c.asRgb?)
  | _ => none

/-- The constructor of a shape with center and half axes. -/
def oval? (make : Point → UInt32 → UInt32 → Rgb → Shape) (v : Json) : Option Shape := do
  match ← all? ["center", "a", "b", "color"] v with
  | [p, a, b, c] => return make (← p.asPoint?) (← a.asUInt32?) (← b.asUInt32?) (← c.asRgb?)
  | _ => none

/-- The points, the filling and the colour of a shape with corners. -/
def corners? (v : Json) : Option (List Point × Bool × Rgb) := do
  match ← arrange? ["points", "fill", "color"] v with
  | [ps, fill, c] =>
    return (← (← (← ps).asList?).mapM asPoint?, ← orElse? asBool? false fill, ← (← c).asRgb?)
  | _ => none

def triangle? (v : Json) : Option Shape := do
  match ← corners? v with
  | ([p, q, r], fill, c) => return triangle p q r fill c
  | _ => none

def polygon? (v : Json) : Option Shape := do
  let (ps, fill, c) ← corners? v
  return polygon ps fill c

def softLine? (v : Json) : Option Shape := do
  match ← all? ["from", "to", "color"] v with
  | [p, q, c] =>
    let (x0, y0) ← p.asPosition?
    let (x1, y1) ← q.asPosition?
    return softLine x0 y0 x1 y1 (← c.asRgb?)
  | _ => none

def checker? (v : Json) : Option Shape := do
  match ← all? ["at", "size", "cell", "colors"] v with
  | [p, size, cell, colors] =>
    match ← colors.asList? with
    | [even, odd] =>
      return checker (← p.asPoint?) (← size.asUInt32?) (← cell.asUInt32?) (← even.asRgb?)
        (← odd.asRgb?)
    | _ => none
  | _ => none

/-- The reader of the shapes with a tag. -/
def reader? : String → Option (Json → Option Shape)
  | "line" => some (twoPoints? line)
  | "thick_line" => some thickLine?
  | "rect" => some (twoPoints? rect)
  | "fill_rect" => some (twoPoints? fillRect)
  | "circle" => some (round? circle)
  | "fill_circle" => some (round? fillCircle)
  | "circle_seg" => some circleSegments?
  | "ellipse" => some (oval? ellipse)
  | "fill_ellipse" => some (oval? fillEllipse)
  | "triangle" => some triangle?
  | "polygon" => some polygon?
  | "aa_line" => some softLine?
  | "checker" => some checker?
  | _ => none

def decode? (v : Json) : Option Shape :=
  if v.isSound then do
    let (tag, rest) ← split? v
    (← reader? tag) rest
  else none

end Shape

namespace Scene
open Json

def fieldNames : List String :=
  ["name", "width", "height", "pixel_type", "background", "gamma", "shapes"]

/-- The names of all fields stand for texts. -/
def namesAreTexts : Json → Bool
  | object fields => fields.all (·.1.isSome)
  | _ => true

def decode? (v : Json) : Option Scene := do
  if !namesAreTexts v then none
  match ← arrange? fieldNames v with
  | [name, width, height, type, background, gamma, shapes] =>
    return {
      name := ← orElse? asText? "untitled" name
      width := ← (← width).asUInt32?
      height := ← (← height).asUInt32?
      pixelType := ← orElse? asPixelType? .rgb888 type
      background := ← orElse? asRgb? ⟨0, 0, 0⟩ background
      gamma := ← orElse? (orNull asFloat32?) none gamma
      shapes := ← orElse? (fun v => do (← v.asList?).mapM Shape.decode?) [] shapes }
  | _ => none

/-- The scene that a text describes. -/
def ofJson (text : String) : Except Error Scene :=
  match (Json.parse text.toList).bind decode? with
  | some s => .ok s
  | none => .error .malformedScene

/-- The scene in the file at a path, where `read` gives the text of a file that can be read. -/
def load (read : String → Option String) (path : String) : Except Error Scene :=
  match read path with
  | some text => ofJson text
  | none => .error (.unreadablePath path)

/-- Writes a scene to the file at a path; `write` says whether it succeeded. -/
def save (s : Scene) (write : String → String → Bool) (path : String) : Except Error Unit :=
  if write path s.toJson then .ok () else .error (.unreadablePath path)

end Scene

end Raster
