import Raster.Json.Basic
import Raster.Json.Text

/- Writing JSON.

   Items and fields stand on lines of their own, two spaces further in than what they
   belong to; an array or object without any is written in one piece. This is the layout
   that the JSON library documents for texts meant to be read. -/
namespace Raster.Json

/-- A string in quotes; what stands for no text is written as the empty one. -/
def quote (s : Option String) : List Char :=
  '"' :: (s.getD "").toList.flatMap escape ++ ['"']

/-- A new line that starts `n` steps in. -/
def newLine (n : Nat) : List Char := '\n' :: List.replicate (2 * n) ' '

mutual

/-- The text of a value whose lines start `n` steps in. -/
def print (n : Nat) : Json → List Char
  | null => ['n', 'u', 'l', 'l']
  | bool true => ['t', 'r', 'u', 'e']
  | bool false => ['f', 'a', 'l', 's', 'e']
  | number m => m.chars
  | string s => quote s
  | array [] => ['[', ']']
  | array (x :: xs) =>
    '[' :: newLine (n + 1) ++ print (n + 1) x ++ printItems (n + 1) xs ++ newLine n ++ [']']
  | object [] => ['\x7b', '\x7d']
  | object ((k, x) :: xs) =>
    '\x7b' :: newLine (n + 1) ++ quote k ++ [':', ' '] ++ print (n + 1) x ++
      printFields (n + 1) xs ++ newLine n ++ ['\x7d']

/-- Items after the first one. -/
def printItems (n : Nat) : List Json → List Char
  | [] => []
  | x :: xs => ',' :: newLine n ++ print n x ++ printItems n xs

/-- Fields after the first one. -/
def printFields (n : Nat) : List (Option String × Json) → List Char
  | [] => []
  | (k, x) :: xs => ',' :: newLine n ++ quote k ++ [':', ' '] ++ print n x ++ printFields n xs

end

/-- The text of a value. -/
def pretty (v : Json) : String := String.ofList (print 0 v)

end Raster.Json
