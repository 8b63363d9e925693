import ContractHost.Json.Reader

/-!
# JSON numbers

A numeral is an optional minus sign, a whole part without superfluous leading zeros, an optional
fraction and an optional exponent.  Without fraction and exponent it is an integer if its value
lies between `-2 ^ 63` and `2 ^ 64 - 1`; every other numeral, and `-0`, is a double.  A numeral
that overflows the doubles is malformed.

The double is made of the longest beginning of the digits that fits in a word, multiplied or
divided by a power of ten.
-/

namespace ContractHost.Json

/-- The value of a numeral. -/
inductive Number where
  | integer (z : Int)
  | float (x : Float)

/-- The parts of a numeral: sign, digits before and behind the point, and the exponent. -/
structure Numeral where
  negative : Bool
  whole : List Nat
  fraction : Option (List Nat)
  exponent : Option Int

/-! ## The value of a numeral -/

/-- The power of ten as a double. -/
def powerOfTen (n : Nat) : Float := Float.ofScientific 1 false n

/-- The greatest power of ten that is a double. -/
def greatestPower : Nat := 308

/-- Divides by a power of ten, in several steps if it is no double. -/
def scaleDown (x : Float) (n : Nat) : Float :=
  if n ≤ greatestPower then x / powerOfTen n
  else if x == 0 then x
  else scaleDown (x / powerOfTen greatestPower) (n - greatestPower)
termination_by n
decreasing_by
  simp only [greatestPower] at *
  omega

/-- Multiplies by a power of ten, if the result is finite. -/
def scaleUp? (x : Float) (n : Nat) : Option Float :=
  if n ≤ greatestPower then
    let y := x * powerOfTen n
    if y.isInf then none else some y
  else if x == 0 then some x
  else none

/-- Takes in digits while the number fits in a word, and counts those left over. -/
def absorb : Nat → List Nat → Nat × Nat
  | n, [] => (n, 0)
  | n, d :: ds => if 10 * n + d < UInt64.size then absorb (10 * n + d) ds else (n, ds.length + 1)

/-- The magnitude of the least integer. -/
def leastMagnitude : Nat := 0x8000000000000000

namespace Numeral

/-- The value of a numeral as a double. -/
def float? (n : Numeral) : Option Float :=
  let (significand, wholeLeft) := absorb 0 n.whole
  let fraction := n.fraction.getD []
  let (significand, fractionLeft) := absorb significand fraction
  let taken := fraction.length - fractionLeft
  let power : Int := wholeLeft - taken + n.exponent.getD 0
  let x := significand.toUInt64.toFloat
  let y? := if 0 ≤ power then scaleUp? x power.toNat else some (scaleDown x (-power).toNat)
  y?.map fun y => if n.negative then -y else y

/-- The value of a numeral without fraction and exponent as an integer: its digits must fit in a
word, and a negative one must not lie below the least integer. -/
def integer? (n : Numeral) : Option Int :=
  match absorb 0 n.whole with
  | (_, _ + 1) => none
  | (value, 0) =>
    if n.negative then
      if 0 < value && value ≤ leastMagnitude then some (-value) else none
    else some value

/-- The value of a numeral, unless it is too large. -/
def value? (n : Numeral) : Option Number :=
  match n.fraction, n.exponent, n.integer? with
  | none, none, some z => some (.integer z)
  | _, _, _ => n.float?.map .float

end Numeral

/-! ## Reading a numeral -/

/-- The digits at the front, and the rest. -/
def spanDigits (s : List UInt8) : List Nat × List UInt8 :=
  ((s.takeWhile Decimal.isDigit).map Decimal.digitOfByte, s.dropWhile Decimal.isDigit)

theorem length_spanDigits_le (s : List UInt8) : (spanDigits s).2.length ≤ s.length :=
  (List.dropWhile_sublist _).length_le

/-- What is wrong where a digit should stand. -/
def noDigit : List UInt8 → ReadError
  | [] => .endOfInput
  | _ :: _ => .malformed

/-- Reads at least one digit. -/
def someDigits (s : List UInt8) : Except ReadError (List Nat × List UInt8) :=
  match spanDigits s with
  | ([], _) => .error (noDigit s)
  | (d :: ds, rest) => .ok (d :: ds, rest)

theorem length_someDigits_le {s rest : List UInt8} {ds : List Nat}
    (h : someDigits s = .ok (ds, rest)) : rest.length ≤ s.length := by
  have := length_spanDigits_le s
  unfold someDigits at h
  split at h
  next => cases h
  next heq =>
    cases h
    simpa [heq] using this

/-- The whole part: a zero, or digits of which the first is not zero. -/
def wholePart : List UInt8 → Except ReadError (List Nat × List UInt8)
  | [] => .error .endOfInput
  | b :: s =>
    if b = Byte.zero then
      match s with
      | c :: _ => if Decimal.isDigit c then .error .malformed else .ok ([0], s)
      | [] => .ok ([0], s)
    else if Decimal.isDigit b then .ok (spanDigits (b :: s))
    else .error .malformed

/-- The fraction, if a point follows. -/
def fractionPart : List UInt8 → Except ReadError (Option (List Nat) × List UInt8)
  | [] => .ok (none, [])
  | b :: s =>
    if b = Byte.point then
      match someDigits s with
      | .ok (ds, rest) => .ok (some ds, rest)
      | .error e => .error e
    else .ok (none, b :: s)

/-- The sign of an exponent, plus if there is none. -/
def exponentSign : List UInt8 → Bool × List UInt8
  | [] => (false, [])
  | b :: s =>
    if b = Byte.minus then (true, s) else if b = Byte.plus then (false, s) else (false, b :: s)

/-- The exponent, if the letter for one follows. -/
def exponentPart : List UInt8 → Except ReadError (Option Int × List UInt8)
  | [] => .ok (none, [])
  | b :: s =>
    if b = Byte.lowerE || b = Byte.upperE then
      match someDigits (exponentSign s).2 with
      | .ok (ds, rest) =>
        let e : Int := Decimal.ofDigits ds
        .ok (some (if (exponentSign s).1 then -e else e), rest)
      | .error e => .error e
    else .ok (none, b :: s)

theorem length_wholePart_lt {s rest : List UInt8} {ds : List Nat}
    (h : wholePart s = .ok (ds, rest)) : rest.length < s.length := by
  unfold wholePart at h
  split at h
  · cases h
  · next b s =>
    split at h
    · split at h
      · split at h <;> cases h
        exact Nat.lt_succ_self _
      · cases h
        exact Nat.lt_succ_self _
    · split at h
      next hd =>
        cases h
        have hd' : Decimal.isDigit b = true := hd
        have : (s.dropWhile Decimal.isDigit).length ≤ s.length :=
          (List.dropWhile_sublist _).length_le
        simp only [List.dropWhile_cons, hd', if_true, List.length_cons]
        omega
      next => cases h

theorem length_fractionPart_le {s rest : List UInt8} {f : Option (List Nat)}
    (h : fractionPart s = .ok (f, rest)) : rest.length ≤ s.length := by
  unfold fractionPart at h
  split at h
  · cases h
    exact Nat.le_refl _
  · split at h
    · split at h
      next hd =>
        cases h
        exact Nat.le_succ_of_le (length_someDigits_le hd)
      next => cases h
    · cases h
      exact Nat.le_refl _

theorem length_exponentSign_le (s : List UInt8) : (exponentSign s).2.length ≤ s.length := by
  unfold exponentSign
  split
  · exact Nat.le_refl _
  · split
    · exact Nat.le_succ _
    · split
      · exact Nat.le_succ _
      · exact Nat.le_refl _

theorem length_exponentPart_le {s rest : List UInt8} {e : Option Int}
    (h : exponentPart s = .ok (e, rest)) : rest.length ≤ s.length := by
  unfold exponentPart at h
  split at h
  · cases h
    exact Nat.le_refl _
  · split at h
    · split at h
      next hd =>
        cases h
        have h₁ := length_someDigits_le hd
        have h₂ := length_exponentSign_le ‹List UInt8›
        exact Nat.le_succ_of_le (Nat.le_trans h₁ h₂)
      next => cases h
    · cases h
      exact Nat.le_refl _

/-- Reads a numeral behind its sign. -/
def unsignedNumeral (negative : Bool) (s : List UInt8) :
    Except ReadError (Numeral × List UInt8) :=
  match wholePart s with
  | .error e => .error e
  | .ok (whole, s₁) =>
    match fractionPart s₁ with
    | .error e => .error e
    | .ok (fraction, s₂) =>
      match exponentPart s₂ with
      | .error e => .error e
      | .ok (exponent, s₃) => .ok (⟨negative, whole, fraction, exponent⟩, s₃)

theorem length_unsignedNumeral_lt {negative : Bool} {s rest : List UInt8} {n : Numeral}
    (h : unsignedNumeral negative s = .ok (n, rest)) : rest.length < s.length := by
  unfold unsignedNumeral at h
  split at h
  · cases h
  next h₁ =>
    split at h
    · cases h
    next h₂ =>
      split at h
      · cases h
      next h₃ =>
        cases h
        have := length_wholePart_lt h₁
        have := length_fractionPart_le h₂
        have := length_exponentPart_le h₃
        omega

/-- Reads a numeral, which starts with a minus sign or a digit. -/
def numeral : List UInt8 → Except ReadError (Numeral × List UInt8)
  | [] => .error .endOfInput
  | b :: s => if b = Byte.minus then unsignedNumeral true s else unsignedNumeral false (b :: s)

theorem length_numeral_lt {s rest : List UInt8} {n : Numeral}
    (h : numeral s = .ok (n, rest)) : rest.length < s.length := by
  unfold numeral at h
  split at h
  · cases h
  · split at h
    · exact Nat.lt_succ_of_lt (length_unsignedNumeral_lt h)
    · exact length_unsignedNumeral_lt h

/-- Reads a number, which starts with a minus sign or a digit. -/
def number (s : List UInt8) : Except ReadError (Number × List UInt8) :=
  match numeral s with
  | .error e => .error e
  | .ok (n, rest) =>
    match n.value? with
    | some v => .ok (v, rest)
    | none => .error .malformed

theorem length_number_lt {s rest : List UInt8} {n : Number}
    (h : number s = .ok (n, rest)) : rest.length < s.length := by
  unfold number at h
  split at h
  · cases h
  next hn =>
    split at h <;> cases h
    exact length_numeral_lt hn

end ContractHost.Json
