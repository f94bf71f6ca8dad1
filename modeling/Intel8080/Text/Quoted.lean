import Intel8080.Hex
import Intel8080.Text.Invisible

/-!
# Quoted text

Texts and characters between quotes, such that every character can be seen. The
quote itself and the backslash stand behind a backslash, the common control
characters have letters, and any other invisible character is written as its
code point in hexadecimal.
-/

namespace Intel8080.Quoted

/-- A character between the given quotes. -/
def escape (quote character : Char) : List Char :=
  if character == '\x00' then ['\\', '0']
  else if character == '\t' then ['\\', 't']
  else if character == '\r' then ['\\', 'r']
  else if character == '\n' then ['\\', 'n']
  else if character == '\\' || character == quote then ['\\', character]
  else if Invisible.contains character then
    ['\\', 'u', '\x7b'] ++ Hex.shortest character.toNat ++ ['\x7d']
  else [character]

/-- A text in double quotes. -/
def string (text : String) : String :=
  String.ofList (['"'] ++ text.toList.flatMap (escape '"') ++ ['"'])

/-- A character in single quotes. -/
def char (character : Char) : String :=
  String.ofList (['\''] ++ escape '\'' character ++ ['\''])

end Intel8080.Quoted
