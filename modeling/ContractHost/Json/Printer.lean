import ContractHost.Json.Value

/-!
# Writing JSON

A value is written without blanks, the members of an object in their order.  A string is written
with the short escapes for a quote, a backslash and the five control characters that have one, and
with four hexadecimal digits for the other control characters; all else stands for itself.
-/

namespace ContractHost.Json

/-- A text as its bytes. -/
def textBytes (s : String) : List UInt8 := s.toUTF8.data.toList

/-- The byte of a hexadecimal digit. -/
def hexByte (d : Nat) : UInt8 := UInt8.ofNat (if d < 10 then 48 + d else 87 + d)

/-- How a byte of a text is written inside quotes. -/
def escapedByte (b : UInt8) : List UInt8 :=
  if b = Byte.quote || b = Byte.backslash then [Byte.backslash, b]
  else if 32 ≤ b then [b]
  else if b = 8 then [Byte.backslash, 98]
  else if b = 9 then [Byte.backslash, 116]
  else if b = 10 then [Byte.backslash, 110]
  else if b = 12 then [Byte.backslash, 102]
  else if b = 13 then [Byte.backslash, 114]
  else
    [Byte.backslash, Byte.unit, Byte.zero, Byte.zero, hexByte (b.toNat / 16),
      hexByte (b.toNat % 16)]

/-- A text in quotes. -/
def stringLiteral (s : String) : List UInt8 :=
  Byte.quote :: (textBytes s).flatMap escapedByte ++ [Byte.quote]

/-- Parts with commas between them. -/
def separated : List (List UInt8) → List UInt8
  | [] => []
  | [x] => x
  | x :: y :: rest => x ++ Byte.comma :: separated (y :: rest)

/-- A number. -/
def Number.write : Number → List UInt8
  | integer z => Decimal.intBytes z
  | float x => textBytes (Decimal.floatText x)

mutual

/-- A value. -/
def Value.write : Value → List UInt8
  | .null => Byte.n :: Byte.ull
  | .boolean true => 116 :: Byte.rue
  | .boolean false => 102 :: Byte.alse
  | .number n => n.write
  | .string s => stringLiteral s
  | .array vs => Byte.openBracket :: separated (writeElements vs) ++ [Byte.closeBracket]
  | .object ms => Byte.openBrace :: separated (writeMembers ms) ++ [Byte.closeBrace]

/-- The elements of an array, one by one. -/
def writeElements : List Value → List (List UInt8)
  | [] => []
  | v :: vs => v.write :: writeElements vs

/-- The members of an object, one by one. -/
def writeMembers : List (String × Value) → List (List UInt8)
  | [] => []
  | (name, v) :: ms => (stringLiteral name ++ Byte.colon :: v.write) :: writeMembers ms

end

end ContractHost.Json
