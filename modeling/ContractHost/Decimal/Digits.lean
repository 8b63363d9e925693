/-!
# Decimal digits

Natural numbers written in decimal digits, most significant first, without leading zeros, and read
back from them.
-/

namespace ContractHost.Decimal

/-- The digits of a number; zero has one digit. -/
def digits (n : Nat) : List Nat :=
  if n < 10 then [n] else digits (n / 10) ++ [n % 10]
termination_by n

/-- The number that a list of digits stands for. -/
def ofDigits (ds : List Nat) : Nat :=
  ds.foldl (fun n d => 10 * n + d) 0

/-- The byte of a digit. -/
def digitByte (d : Nat) : UInt8 := UInt8.ofNat (48 + d)

/-- Whether the byte is that of a digit. -/
def isDigit (b : UInt8) : Bool := 48 ≤ b && b ≤ 57

/-- The digit of a byte. -/
def digitOfByte (b : UInt8) : Nat := b.toNat - 48

/-- The number as bytes. -/
def natBytes (n : Nat) : List UInt8 := (digits n).map digitByte

/-- The integer as bytes, with a minus sign if it is below zero. -/
def intBytes : Int → List UInt8
  | .ofNat n => natBytes n
  | .negSucc n => 45 :: natBytes (n + 1)

theorem ofDigits_append_singleton (ds : List Nat) (d : Nat) :
    ofDigits (ds ++ [d]) = 10 * ofDigits ds + d := by
  simp [ofDigits, List.foldl_append]

/-- Digits read back as the number they were written for. -/
theorem ofDigits_digits (n : Nat) : ofDigits (digits n) = n := by
  fun_induction digits n with
  | case1 n h => simp [ofDigits]
  | case2 n h ih =>
    rw [ofDigits_append_singleton, ih]
    omega

/-- Every digit is below ten. -/
theorem lt_ten_of_mem_digits {n d : Nat} (h : d ∈ digits n) : d < 10 := by
  fun_induction digits n with
  | case1 n hn => simp_all
  | case2 n hn ih =>
    rcases List.mem_append.1 h with h | h
    · exact ih h
    · simp only [List.mem_singleton] at h
      omega

end ContractHost.Decimal
