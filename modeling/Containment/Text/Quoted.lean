import Containment.Text.Unicode

/-!
# Quoted texts

A text between quotes in which everything that cannot be seen is escaped: the quote and the
backslash, the four short escapes, and by its number every character that is not printable or only
extends the character before it.
-/

namespace Containment.Text

def escapeNumbered (c : Char) : List Char :=
  '\\' :: 'u' :: '\x7b' :: (Nat.toDigits 16 c.toNat ++ ['\x7d'])

def escapeVisible (c : Char) : List Char :=
  match c with
  | '\x00' => ['\\', '0']
  | '\t' => ['\\', 't']
  | '\r' => ['\\', 'r']
  | '\n' => ['\\', 'n']
  | '\\' => ['\\', '\\']
  | '"' => ['\\', '"']
  | c => if isPrintable c && !extendsGrapheme c then [c] else escapeNumbered c

def quoted (s : String) : String :=
  String.ofList ('"' :: (s.toList.flatMap escapeVisible ++ ['"']))

end Containment.Text
