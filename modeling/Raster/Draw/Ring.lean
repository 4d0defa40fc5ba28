/- Closed sequences. -/
namespace Raster

/-- Every pair of neighbours in a closed sequence, each with the one before it first. -/
def neighbours {α : Type} (ps : List α) : List (α × α) :=
  match ps.getLast? with
  | some p => (p :: ps).zip ps
  | none => []

end Raster
