import MediaSession.Text.Hex
import MediaSession.Text.Printable

/-!
Text inside quotes. Common controls have letters, other hidden characters are spelled as their code
point in braces, and only the quote in use is escaped.
-/
namespace MediaSession.Text.Quoted

/-- One character as it stands between the given quotes. -/
def escape (quote char : Char) : List Char :=
  if char = '\x00' then ['\\', '0']
  else if char = '\t' then ['\\', 't']
  else if char = '\r' then ['\\', 'r']
  else if char = '\n' then ['\\', 'n']
  else if char = '\\' ∨ char = quote then ['\\', char]
  else if Printable.isPrintable char then [char]
  else ['\\', 'u', '\x7b'] ++ (Hex.ofNat char.toNat).toList ++ ['\x7d']

/-- A string between double quotes. -/
def string (text : String) : String :=
  String.ofList ('\x22' :: text.toList.flatMap (escape '\x22') ++ ['\x22'])

/-- A character between single quotes. -/
def character (char : Char) : String :=
  String.ofList ('\x27' :: escape '\x27' char ++ ['\x27'])

end MediaSession.Text.Quoted
