import Raster.Text.Printable

/- Quoted text.

   `quoted s` is `s` between double quotes. A quote and a backslash take a backslash;
   NUL, tab, line feed and carriage return have short escapes; any other character that
   is not printable or joins the one before it is written by its number in hexadecimal. -/
namespace Raster.Text

/-- The number of a character as an escape: `u`, then braces around its digits. -/
def numberEscape (c : Char) : List Char :=
  ['\\', 'u', '\x7b'] ++ Nat.toDigits 16 c.toNat ++ ['\x7d']

def escape (c : Char) : List Char :=
  if c = '\x00' then ['\\', '0']
  else if c = '\t' then ['\\', 't']
  else if c = '\r' then ['\\', 'r']
  else if c = '\n' then ['\\', 'n']
  else if c = '\\' ∨ c = '"' then ['\\', c]
  else if extendsGrapheme c then numberEscape c
  else if isPrintable c then [c]
  else numberEscape c

def quoted (s : String) : String :=
  String.ofList ('"' :: s.toList.flatMap escape ++ ['"'])

end Raster.Text
