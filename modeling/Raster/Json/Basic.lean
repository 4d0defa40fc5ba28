import Raster.Decimal.Numeral

/- JSON values.

   A `Json` keeps what a text says: numbers as numerals, fields in their order and also
   when a name is repeated. A string whose escapes name half a surrogate pair stands for
   no text and is `none`.

   The modules of `Raster.Json` stand for the JSON library that the program links and
   whose source is not part of it. They follow what the library documents: strict JSON
   and nothing after it, a limit to the depth of nesting, numbers that are integers of 64
   bits or else of double precision, an error for those that are too large, and a text
   that is indented by two spaces. Where a rule of it is followed, the header of the
   module states it. -/
namespace Raster

open Decimal (Numeral)

inductive Json where
  | null
  | bool (b : Bool)
  | number (n : Numeral)
  | string (s : Option String)
  | array (items : List Json)
  | object (fields : List (Option String × Json))
  deriving Repr

namespace Json

def text (s : String) : Json := string (some s)

def int (v : Int) : Json := number (.ofInt v)

def nat (n : Nat) : Json := number (.ofNat n)

/-- An object whose names are given. -/
def record (fields : List (String × Json)) : Json :=
  object (fields.map fun (k, v) => (some k, v))

mutual

/-- The count of arrays and objects around the innermost value. -/
def depth : Json → Nat
  | array items => depthOfItems items + 1
  | object fields => depthOfFields fields + 1
  | _ => 0

def depthOfItems : List Json → Nat
  | [] => 0
  | x :: xs => max (depth x) (depthOfItems xs)

def depthOfFields : List (Option String × Json) → Nat
  | [] => 0
  | (_, x) :: xs => max (depth x) (depthOfFields xs)

end

end Json

end Raster
