import ContractHost.Decimal.Shortest

/-!
# Text of floating-point numbers

A double is written with the fewest digits that read back as it, always with a point or an
exponent.  Numbers from `1e-5` up to below `1e16` are written without exponent, and whole ones of
them end in `.0`; an exponent has a sign and no superfluous zeros.
-/

namespace ContractHost.Decimal

/-- The least power of ten of a first digit that is written without exponent. -/
def leastPositional : Int := -5

/-- The greatest power of ten of a first digit that is written without exponent. -/
def greatestPositional : Int := 15

/-- Digits as characters. -/
def digitChars (ds : List Nat) : List Char := ds.map fun d => Char.ofNat (48 + d)

/-- Zeros as characters. -/
def zeroChars (n : Nat) : List Char := List.replicate n '0'

/-- An exponent as characters: its sign and its digits. -/
def exponentChars (e : Int) : List Char :=
  'e' :: (if e < 0 then '-' else '+') :: digitChars (digits e.natAbs)

/-- Digits whose first counts `10 ^ lead`, as text. -/
def layout (ds : List Nat) (lead : Int) : List Char :=
  let cs := digitChars ds
  if lead < leastPositional || greatestPositional < lead then
    match cs with
    | [] => ['0']
    | [c] => c :: exponentChars lead
    | c :: rest => c :: '.' :: rest ++ exponentChars lead
  else if lead < 0 then '0' :: '.' :: zeroChars (-lead - 1).toNat ++ cs
  else
    let wholeLength := lead.toNat + 1
    let fraction := cs.drop wholeLength
    cs.take wholeLength ++ zeroChars (wholeLength - cs.length) ++
      '.' :: (if fraction.isEmpty then ['0'] else fraction)

/-- The bit of a double that says whether it is negative. -/
def signBit : Nat := 0x8000000000000000

/-- The text of a double. -/
def floatText (x : Float) : String :=
  let bits := x.toBits
  let magnitude := bits.toNat % signBit
  let sign := if signBit ≤ bits.toNat then ['-'] else []
  if x.isNaN then "NaN"
  else if x.isInf then String.ofList (sign ++ ['i', 'n', 'f'])
  else if magnitude = 0 then String.ofList (sign ++ ['0', '.', '0'])
  else
    let (ds, lead) := shortestDigits (UInt64.ofNat magnitude)
    String.ofList (sign ++ layout ds lead)

end ContractHost.Decimal
