import LSystem.Text.Unshown

namespace LSystem

/-!
# Quoted texts

A text inside a description stands in double quotes.  What would end the quotes
or could not be seen is written as an escape.
-/

namespace Text

/-- The escape of a character by its code point. -/
def codeEscape (character : Char) : List Char :=
  ['\\', 'u', '\x7b'] ++ Nat.toDigits 16 character.toNat ++ ['\x7d']

/-- How a character is written between double quotes. -/
def escape (character : Char) : List Char :=
  match character with
  | '\x00' => ['\\', '0']
  | '\t' => ['\\', 't']
  | '\n' => ['\\', 'n']
  | '\r' => ['\\', 'r']
  | '"' => ['\\', '"']
  | '\\' => ['\\', '\\']
  | character => if isUnshown character then codeEscape character else [character]

/-- A text in double quotes. -/
def quote (text : String) : String :=
  String.ofList ('"' :: text.toList.flatMap escape ++ ['"'])

end Text
end LSystem
