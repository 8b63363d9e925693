import ContractHost.Text.DefaultIgnorable
import ContractHost.Text.GraphemeExtend
import ContractHost.Text.Printable

/-!
# Quoted text

Text between double quotes on one line.  A quote, a backslash, NUL, tab, line feed and carriage
return have short escapes; a character that extends the one before it, has no image or is not
printable is written by its code point in braces; every other character stands for itself.
-/

namespace ContractHost.Text

/-- The code point in lower-case hexadecimal digits, as short as possible. -/
def codePoint (c : Char) : List Char :=
  '\\' :: 'u' :: '\x7b' :: Nat.toDigits 16 c.toNat ++ ['\x7d']

/-- How a character is written inside quotes. -/
def escaped (c : Char) : List Char :=
  if c = '\x00' then ['\\', '0']
  else if c = '\t' then ['\\', 't']
  else if c = '\n' then ['\\', 'n']
  else if c = '\r' then ['\\', 'r']
  else if c = '"' then ['\\', '"']
  else if c = '\\' then ['\\', '\\']
  else if extendsGrapheme c || isIgnorable c || !isPrintable c then codePoint c
  else [c]

/-- The characters of quoted text. -/
def quotedChars (s : List Char) : List Char :=
  '"' :: s.flatMap escaped ++ ['"']

/-- The text in quotes. -/
def quoted (s : String) : String :=
  String.ofList (quotedChars s.toList)

end ContractHost.Text
