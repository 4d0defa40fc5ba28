import Raster.Error

/- Pixel types by number and by name.

   A name is read without regard to the case of ASCII letters. `G1`, `G2` and `G4` are
   short for the types whose leftmost pixel takes the high end of the byte. -/
namespace Raster.PixelType

/-- The letters of a name with ASCII letters in upper case. -/
def fold (s : String) : List Char := s.toList.map Char.toUpper

/-- The types that have a short name as well. -/
def shortNames : List (String × PixelType) := [("G1", g1ub), ("G2", g2ub), ("G4", g4ub)]

def ofName? (s : String) : Option PixelType :=
  match shortNames.find? (fun (n, _) => fold n == fold s) with
  | some (_, t) => some t
  | none => all.find? fun t => fold t.name == fold s

def ofName (s : String) : Except Error PixelType :=
  match ofName? s with
  | some t => .ok t
  | none => .error (.noSuchPixelTypeName s)

def ofId (n : UInt32) : Except Error PixelType :=
  match all[n.toNat]? with
  | some t => .ok t
  | none => .error (.noSuchPixelType n)

/-- Sets each run of ASCII letters in title case and drops underscores; `inWord` says that a run
goes on. -/
def titleCase (inWord : Bool) : List Char → List Char
  | [] => []
  | c :: r =>
    if c.isAlpha then (if inWord then c.toLower else c.toUpper) :: titleCase true r
    else if c = '_' then titleCase false r
    else c :: titleCase false r

/-- The name in title case, as descriptions of a pixmap show it. -/
def label (t : PixelType) : String := String.ofList (titleCase false t.name.toList)

end Raster.PixelType
