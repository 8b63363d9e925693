import Mathlib.Tactic.Common
import ContractHost.Proofs.Json.Accepted
import ContractHost.Proofs.Json.Answers

/-!
# Integer literals

An integer literal is a whole part, of any length, with or without a minus sign (`Literal`).  An
integer of a range can be read from a text in two ways: straight from it, or as a value of any shape
first that is then taken for an integer.  Both make the same of a literal: its value, if that lies
in the range and the literal is not `-0`, and nothing else (`Literal.toOption_readAll_integer`,
`Literal.toOption_readAll_value`).  The digits are taken in as long as they fit in a word, so what
is too large for one is noticed however long the literal is (`absorb_overflow`).

No other text is read as an integer (`exists_literal`).
-/

namespace ContractHost.Json

open ContractHost.Decimal

/-! ## Literals -/

/-- An integer literal. -/
structure Literal where
  negative : Bool
  whole : List UInt8
  form : WholeForm whole

namespace Literal

/-- The text of the literal. -/
def bytes (l : Literal) : List UInt8 := signBytes l.negative ++ l.whole

/-- The number that the digits stand for. -/
def magnitude (l : Literal) : Nat := ofDigits (l.whole.map digitOfByte)

/-- The integer that the literal stands for. -/
def value (l : Literal) : Int := if l.negative then -l.magnitude else l.magnitude

/-- The literal `-0`. -/
def IsNegativeZero (l : Literal) : Prop := l.negative = true ∧ l.magnitude = 0

/-- The literal stands for an integer of the range, and is not `-0`. -/
def InRange (l : Literal) (r : IntegerRange) : Prop :=
  r.least ≤ l.value ∧ l.value ≤ r.greatest ∧ ¬ l.IsNegativeZero

instance (l : Literal) : Decidable l.IsNegativeZero := inferInstanceAs (Decidable (_ ∧ _))

instance (l : Literal) (r : IntegerRange) : Decidable (l.InRange r) :=
  inferInstanceAs (Decidable (_ ∧ _ ∧ _))

/-- What a literal gives as an integer of the range. -/
def taken (l : Literal) (r : IntegerRange) : Option Int :=
  if l.InRange r then some l.value else none

/-- The parts of the literal as a numeral. -/
def numeral (l : Literal) : Numeral := ⟨l.negative, l.whole.map digitOfByte, none, none⟩

/-- What a literal is read as: a number, unless it is too large for one. -/
def number (l : Literal) : Except ReadError Number :=
  l.numeral.value?.elim (.error .malformed) .ok

end Literal

/-- The range holds nothing but exact integers. -/
def IntegerRange.IsWord (r : IntegerRange) : Prop := IsExact r.least ∧ IsExact r.greatest

/-- Signed bytes are exact. -/
lemma isWord_i8 : IntegerRange.i8.IsWord := by
  simp only [IntegerRange.IsWord, IsExact, IntegerRange.i8, leastMagnitude, UInt64.size]
  omega

/-- Words are exact. -/
lemma isWord_u64 : IntegerRange.u64.IsWord := by
  simp only [IntegerRange.IsWord, IsExact, IntegerRange.u64, leastMagnitude, UInt64.size]
  omega

/-! ## The value of a literal -/

/-- Digits are left over if the number that they stand for does not fit in a word. -/
lemma absorb_overflow {m : Nat} {ds : List Nat} (hm : m < UInt64.size)
    (h : UInt64.size ≤ ds.foldl (fun n d => 10 * n + d) m) :
    ∃ n left, absorb m ds = (n, left + 1) := by
  induction ds generalizing m with
  | nil => exact absurd hm (Nat.not_lt.2 h)
  | cons d ds ih =>
    by_cases hd : 10 * m + d < UInt64.size
    · rw [absorb, if_pos hd]
      exact ih hd h
    · exact ⟨m, ds.length, by rw [absorb, if_neg hd]⟩

namespace Literal

variable {l : Literal} {z : Int} {r : IntegerRange} {s : List UInt8}

/-- A literal stands for an integer if the integer is exact and the literal is not `-0`. -/
lemma integer?_numeral :
    l.numeral.integer? = some z ↔ z = l.value ∧ IsExact l.value ∧ ¬ l.IsNegativeZero := by
  have hfold : (l.whole.map digitOfByte).foldl (fun n d => 10 * n + d) 0 = l.magnitude := rfl
  by_cases hsize : l.magnitude < UInt64.size
  · have habsorb : absorb 0 (l.whole.map digitOfByte) = (l.magnitude, 0) := by
      rw [absorb_of_lt (by rwa [hfold]), hfold]
    rcases hnegative : l.negative with _ | _
    · simp only [numeral, Numeral.integer?, habsorb, value, IsExact, IsNegativeZero, hnegative,
        leastMagnitude, Bool.false_eq_true, if_false, Option.some.injEq, false_and,
        not_false_eq_true, and_true]
      omega
    · simp only [numeral, Numeral.integer?, habsorb, value, IsExact, IsNegativeZero, hnegative,
        if_true, Bool.and_eq_true, decide_eq_true_eq, true_and]
      split
      next hle =>
        simp only [leastMagnitude, UInt64.size, Option.some.injEq] at hle ⊢
        omega
      next hle =>
        simp only [leastMagnitude, UInt64.size, reduceCtorEq, false_iff] at hle ⊢
        omega
  · have hle : UInt64.size ≤ (l.whole.map digitOfByte).foldl (fun n d => 10 * n + d) 0 :=
      Nat.not_lt.1 hsize
    obtain ⟨n, left, habsorb⟩ := absorb_overflow (by decide) hle
    simp only [numeral, Numeral.integer?, habsorb, value, IsExact, leastMagnitude, UInt64.size,
      reduceCtorEq, false_iff] at hsize ⊢
    rintro ⟨_, hexact, _⟩
    rcases hnegative : l.negative with _ | _ <;> simp only [hnegative] at hexact <;> omega

/-- A literal that stands for an integer is read as this integer. -/
lemma numeral_value? (h : l.numeral.integer? = some z) : l.numeral.value? = some (.integer z) := by
  simp only [Numeral.value?, h]
  rfl

/-- As an integer of a range of exact integers a literal gives its value, or nothing. -/
lemma ofNumber_number (hr : r.IsWord) :
    (l.number.toOption.bind fun n => (r.ofNumber n).toOption) = l.taken r := by
  obtain ⟨hleast, hgreatest⟩ := hr
  rcases hinteger : l.numeral.integer? with _ | z
  · -- Then the literal is a double, or too large for one, and its value lies outside the range.
    have hvalue : l.numeral.value? = l.numeral.float?.map .float := by
      unfold Numeral.value?
      split
      next h =>
        rw [hinteger] at h
        cases h
      next => rfl
    have hout : ¬ l.InRange r := by
      rintro ⟨hlow, hhigh, hzero⟩
      have hexact : IsExact l.value :=
        ⟨Int.le_trans hleast.1 hlow, Int.lt_of_le_of_lt hhigh hgreatest.2⟩
      rw [integer?_numeral.2 ⟨rfl, hexact, hzero⟩] at hinteger
      cases hinteger
    rw [taken, if_neg hout]
    rw [number, hvalue]
    rcases l.numeral.float? with _ | x <;> rfl
  · have hnumber : l.number = .ok (.integer z) := by
      rw [number, numeral_value? hinteger]
      rfl
    obtain ⟨rfl, _, hzero⟩ := integer?_numeral.1 hinteger
    simp only [hnumber, Except.toOption, Option.bind_some, IntegerRange.ofNumber, taken, InRange,
      hzero, not_false_eq_true, and_true]
    by_cases hin : r.least ≤ l.value ∧ l.value ≤ r.greatest
    · rw [if_pos hin, if_pos hin]
    · rw [if_neg hin, if_neg hin]

/-! ## The literal of an integer -/

/-- The digits of a number are a whole part. -/
lemma wholeForm_natBytes (n : Nat) : WholeForm (natBytes n) := by
  obtain ⟨d, ds, hds, hd⟩ := digits_eq_cons n
  have hdigit : ∀ d' ∈ d :: ds, isDigit (digitByte d') = true := fun d' hd' =>
    isDigit_digitByte (lt_ten_of_mem_digits (n := n) (by rwa [hds]))
  rw [natBytes, hds, List.map_cons]
  rcases hd with hd | ⟨rfl, rfl⟩
  · have hne : ∀ d < 10, d ≠ 0 → digitByte d ≠ Byte.zero := by decide
    have hlt : d < 10 := lt_ten_of_mem_digits (n := n) (by rw [hds]; exact List.mem_cons_self)
    refine .digits (hdigit d List.mem_cons_self) (hne d hlt hd) fun b hb => ?_
    obtain ⟨d', hd', rfl⟩ := List.mem_map.1 hb
    exact hdigit d' (List.mem_cons_of_mem d hd')
  · rw [digits_of_lt (by decide)] at hds
    cases hds
    exact .zero

/-- The literal that is written for an integer. -/
def ofInt (z : Int) : Literal := ⟨decide (z < 0), natBytes z.natAbs, wholeForm_natBytes z.natAbs⟩

/-- The literal of an integer stands for the integer. -/
lemma value_ofInt (z : Int) : (ofInt z).value = z := by
  have hmagnitude : (ofInt z).magnitude = z.natAbs := by
    have hback : (natBytes z.natAbs).map digitOfByte = digits z.natAbs := by
      rw [natBytes, List.map_map]
      conv_rhs => rw [← List.map_id (digits z.natAbs)]
      exact List.map_congr_left fun d hd => digitOfByte_digitByte (lt_ten_of_mem_digits hd)
    rw [magnitude, ofInt, hback, ofDigits_digits]
  rw [value, hmagnitude]
  by_cases hz : z < 0
  · simp only [ofInt, hz, decide_true, if_true]
    omega
  · simp only [ofInt, hz, decide_false, Bool.false_eq_true, if_false]
    omega

/-- The literal of an integer lies in the ranges that the integer lies in. -/
lemma inRange_ofInt : (ofInt z).InRange r ↔ r.least ≤ z ∧ z ≤ r.greatest := by
  have hzero : ¬(ofInt z).IsNegativeZero := by
    rintro ⟨hnegative, hmagnitude⟩
    have hvalue : (ofInt z).value = 0 := by simp [value, hmagnitude]
    rw [value_ofInt] at hvalue
    simp [ofInt, hvalue] at hnegative
  rw [InRange, value_ofInt, and_iff_left hzero]

/-! ## Reading a literal -/

/-- A literal is a numeral. -/
lemma numeralForm (l : Literal) : NumeralForm l.bytes := by
  have h := NumeralForm.mk l.negative l.form .none .none
  rwa [List.append_nil, List.append_nil] at h

/-- A literal is the text of a value. -/
lemma wellFormed (l : Literal) : WellFormed l.bytes := .numeral l.numeralForm

/-- A literal is read up to its end. -/
lemma number_append (l : Literal) {rest : List UInt8} (hr : Ends rest) :
    Json.number (l.bytes ++ rest) = l.number.map fun n => (n, rest) := by
  obtain ⟨f, e, hf, he, hnumeral⟩ := exists_numeral l.negative l.form .none .none
  obtain rfl := hf.2 rfl
  obtain rfl := he.2 rfl
  have hread : Json.numeral (l.bytes ++ rest) = .ok (l.numeral, rest) := by
    have h := hnumeral rest hr
    rwa [List.append_nil, List.append_nil] at h
  simp only [Json.number, hread, number]
  rcases l.numeral.value? with _ | n <;> rfl

/-- A literal starts with a minus sign or a digit. -/
lemma exists_cons (l : Literal) :
    ∃ b s, l.bytes = b :: s ∧ (b = Byte.minus || isDigit b) = true ∧
      ∀ rest, Ends rest → Json.number (b :: (s ++ rest)) = l.number.map fun n => (n, rest) := by
  obtain ⟨b, s, hs, hb⟩ := l.numeralForm.exists_cons
  refine ⟨b, s, hs, hb, fun rest hr => ?_⟩
  rw [← List.cons_append, ← hs, l.number_append hr]

/-- What a literal is answered by where an integer of the range is read. -/
lemma answers_integer (l : Literal) (r : IntegerRange) :
    (Reader.integer r).Answers l.bytes
      (l.number.bind fun n => (r.ofNumber n).mapError .mismatch) := by
  intro before rest hbefore hr
  obtain ⟨b, s, hs, hb, hnumber⟩ := l.exists_cons
  obtain ⟨hblank, _⟩ := startsNumeral_ne hb
  simp only [hs, List.cons_append, Reader.integer, Reader.byFirst,
    skipBlanks_append_cons hbefore hblank, integerFrom, if_pos hb, hnumber rest hr]
  rcases l.number with e | n
  · rfl
  · simp only [Except.map, Except.bind]
    rcases r.ofNumber n with m | z <;> rfl

/-- What a literal is answered by where a value is read. -/
lemma answers_value (l : Literal) (n : Nat) :
    (Value.reader n).Answers l.bytes (l.number.map .number) := by
  intro before rest hbefore hr
  obtain ⟨b, s, hs, hb, hnumber⟩ := l.exists_cons
  obtain ⟨hblank, hbracket, hbrace, _⟩ := startsNumeral_ne hb
  have hread : ∀ inner, Value.readWith inner (before ++ (l.bytes ++ rest)) =
      (l.number.map .number).map fun v => (v, rest) := by
    intro inner
    simp only [hs, List.cons_append, Value.readWith, skipBlanks_append_cons hbefore hblank,
      if_neg hbracket, if_neg hbrace, scalar_of_startsNumeral hb, hnumber rest hr]
    rcases l.number with e | n <;> rfl
  rcases n with _ | n
  · exact hread none
  · exact hread (some (Value.reader n))

/-- Straight from a literal its value is read if it lies in the range, and nothing else. -/
theorem toOption_readAll_integer (hr : r.IsWord) (hs : Spaced (· = l.bytes) s) :
    (readAll (Reader.integer r) s).toOption = l.taken r := by
  obtain ⟨before, _, after, hbefore, rfl, hafter, rfl⟩ := hs
  rw [(l.answers_integer r).readAll_eq hbefore hafter, ← ofNumber_number hr]
  rcases l.number with e | n
  · rfl
  · simp only [Except.bind, Except.toOption, Option.bind_some]
    rcases r.ofNumber n with m | z <;> rfl

/-- From the value that a literal is read as its value is taken if it lies in the range, and nothing
else. -/
theorem toOption_readAll_value (hr : r.IsWord) (n : Nat) (hs : Spaced (· = l.bytes) s) :
    ((readAll (Value.reader n) s).toOption.bind fun v => (r.ofValue v).toOption) = l.taken r := by
  obtain ⟨before, _, after, hbefore, rfl, hafter, rfl⟩ := hs
  rw [(l.answers_value n).readAll_eq hbefore hafter, ← ofNumber_number hr]
  rcases l.number with e | n <;> rfl

end Literal

/-! ## No other text is read as an integer -/

/-- A numeral that stands for an integer has neither a fraction nor an exponent. -/
lemma Numeral.eq_none_of_value? {n : Numeral} {z : Int} (h : n.value? = some (.integer z)) :
    n.fraction = none ∧ n.exponent = none ∧ n.integer? = some z := by
  unfold value? at h
  split at h
  next hf he hinteger =>
    obtain rfl : _ = z := by simpa using h
    exact ⟨hf, he, hinteger⟩
  next =>
    obtain ⟨x, _, hx⟩ := Option.map_eq_some_iff.1 h
    cases hx

section

variable {s rest : List UInt8} {r : IntegerRange} {z : Int}

/-- The whole part of a numeral is read up to the end of its digits. -/
lemma wholePart_eq_ok {ds : List Nat} (h : wholePart s = .ok (ds, rest)) :
    ∃ whole, WholeForm whole ∧ s = whole ++ rest ∧ ds = whole.map digitOfByte ∧
      EndsDigits rest := by
  unfold wholePart at h
  split at h
  · cases h
  next b s =>
    split at h
    next hb =>
      obtain rfl := hb
      split at h
      · split at h
        · cases h
        next c s' hc =>
          cases h
          refine ⟨_, .zero, rfl, rfl, fun d r hd => ?_⟩
          obtain ⟨rfl, _⟩ := List.cons.inj hd
          simpa using hc
      · cases h
        exact ⟨_, .zero, rfl, rfl, fun d r hd => absurd hd (by simp)⟩
    next hb =>
      split at h
      next hdigit =>
        cases h
        have hdigit : isDigit b = true := hdigit
        refine ⟨(b :: s).takeWhile isDigit, ?_, (List.takeWhile_append_dropWhile ..).symm, rfl, ?_⟩
        · rw [List.takeWhile_cons_of_pos hdigit]
          exact .digits hdigit hb (List.all_eq_true.1 List.all_takeWhile)
        · intro c r hc
          have := List.head?_dropWhile_not isDigit (b :: s)
          simpa [hc] using this
      next => cases h

/-- If no fraction was read, none stands here. -/
lemma fractionPart_eq_none (h : fractionPart s = .ok (none, rest)) :
    rest = s ∧ ∀ b r, s = b :: r → b ≠ Byte.point := by
  unfold fractionPart at h
  split at h
  · cases h
    exact ⟨rfl, by simp⟩
  next b s =>
    split at h
    · split at h <;> cases h
    next hb =>
      cases h
      refine ⟨rfl, fun c r hc => ?_⟩
      obtain ⟨rfl, _⟩ := List.cons.inj hc
      exact hb

/-- If no exponent was read, none stands here. -/
lemma exponentPart_eq_none (h : exponentPart s = .ok (none, rest)) :
    rest = s ∧ ∀ b r, s = b :: r → b ≠ Byte.lowerE ∧ b ≠ Byte.upperE := by
  unfold exponentPart at h
  split at h
  · cases h
    exact ⟨rfl, by simp⟩
  next b s =>
    split at h
    · split at h <;> cases h
    next hb =>
      cases h
      refine ⟨rfl, fun c r hc => ?_⟩
      obtain ⟨rfl, _⟩ := List.cons.inj hc
      simpa using hb

/-- A numeral without fraction and exponent is read up to where no numeral goes on. -/
lemma unsignedNumeral_eq_ok {negative : Bool} {n : Numeral}
    (h : unsignedNumeral negative s = .ok (n, rest)) (hf : n.fraction = none)
    (he : n.exponent = none) :
    ∃ whole, ∃ hw : WholeForm whole, s = whole ++ rest ∧ Ends rest ∧
      n = (⟨negative, whole, hw⟩ : Literal).numeral := by
  unfold unsignedNumeral at h
  split at h
  · cases h
  next hwhole =>
    split at h
    · cases h
    next hfraction =>
      split at h
      · cases h
      next hexponent =>
        cases h
        obtain rfl := hf
        obtain rfl := he
        obtain ⟨rfl, hpoint⟩ := fractionPart_eq_none hfraction
        obtain ⟨rfl, he⟩ := exponentPart_eq_none hexponent
        obtain ⟨whole, hw, rfl, rfl, hdigits⟩ := wholePart_eq_ok hwhole
        refine ⟨whole, hw, rfl, fun b r hb => ?_, rfl⟩
        simp [continuesNumeral, hdigits b r hb, hpoint b r hb, he b r hb]

/-- An integer is read from a literal, up to where no numeral goes on. -/
lemma number_eq_ok_integer (h : number s = .ok (.integer z, rest)) :
    ∃ l : Literal, s = l.bytes ++ rest ∧ Ends rest ∧ l.numeral.integer? = some z := by
  unfold number at h
  split at h
  · cases h
  next n _ hnumeral =>
    split at h
    next hvalue =>
      cases h
      obtain ⟨hf, he, hinteger⟩ := Numeral.eq_none_of_value? hvalue
      unfold numeral at hnumeral
      split at hnumeral
      · cases hnumeral
      next b s =>
        split at hnumeral
        next hb =>
          obtain ⟨whole, hw, rfl, hends, rfl⟩ := unsignedNumeral_eq_ok hnumeral hf he
          exact ⟨_, by simp [Literal.bytes, signBytes, hb], hends, hinteger⟩
        next =>
          obtain ⟨whole, hw, hs, hends, rfl⟩ := unsignedNumeral_eq_ok hnumeral hf he
          exact ⟨_, by simpa [Literal.bytes, signBytes] using hs, hends, hinteger⟩
    next => cases h

/-- An integer of a range is taken from itself alone. -/
lemma IntegerRange.ofNumber_eq_ok_iff {n : Number} :
    r.ofNumber n = .ok z ↔ n = .integer z ∧ r.least ≤ z ∧ z ≤ r.greatest := by
  rcases n with z' | x
  · by_cases hin : r.least ≤ z' ∧ z' ≤ r.greatest
    · simp only [ofNumber, if_pos hin, Except.ok.injEq, Number.integer.injEq]
      constructor
      · rintro rfl
        exact ⟨rfl, hin⟩
      · exact And.left
    · simp only [ofNumber, if_neg hin, reduceCtorEq, Number.integer.injEq, false_iff]
      rintro ⟨rfl, h⟩
      exact hin h
  · simp [ofNumber]

/-- An integer of a range is read if a number is, and is the integer. -/
lemma integerFrom_eq_ok {b : UInt8} (h : integerFrom r b s = .ok (z, rest)) :
    (b = Byte.minus || isDigit b) = true ∧ number (b :: s) = .ok (.integer z, rest) ∧
      r.least ≤ z ∧ z ≤ r.greatest := by
  unfold integerFrom at h
  split at h
  next hb =>
    split at h
    · cases h
    next hnumber =>
      split at h
      next hz =>
        cases h
        obtain ⟨rfl, hin⟩ := IntegerRange.ofNumber_eq_ok_iff.1 hz
        exact ⟨hb, hnumber, hin⟩
      next => cases h
  next => cases h

/-- An integer is read from nothing but a literal in the range. -/
theorem exists_literal (h : readAll (Reader.integer r) s = .ok z) :
    ∃ l : Literal, Spaced (· = l.bytes) s ∧ l.InRange r ∧ l.value = z := by
  unfold readAll at h
  split at h
  · cases h
  next z' rest hrun =>
    split at h
    next hempty =>
      cases h
      simp only [Reader.integer, Reader.byFirst] at hrun
      split at hrun
      · cases hrun
      next b s' hskip =>
        obtain ⟨_, hnumber, hlow, hhigh⟩ := integerFrom_eq_ok hrun
        obtain ⟨l, hl, _, hinteger⟩ := number_eq_ok_integer hnumber
        obtain ⟨rfl, _, hzero⟩ := Literal.integer?_numeral.1 hinteger
        obtain ⟨before, hbefore, hs⟩ := exists_skipBlanks s
        obtain ⟨after, hafter, hrest⟩ := exists_skipBlanks rest
        rw [List.isEmpty_iff.1 hempty, List.append_nil] at hrest
        refine ⟨l, ⟨before, _, after, hbefore, rfl, hafter, ?_⟩, ⟨hlow, hhigh, hzero⟩, rfl⟩
        rw [hs, hskip, hl, hrest]
    next => cases h

end

end ContractHost.Json
