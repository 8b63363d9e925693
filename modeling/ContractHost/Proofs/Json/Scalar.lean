import Mathlib.Tactic.Common
import Mathlib.Tactic.IntervalCases
import ContractHost.Proofs.Json.Grammar

/-!
# Numerals and strings that are read back

An integer that fits in a word is read back from its decimal digits, provided that no numeral goes
on behind it (`number_intBytes`).  A string is read back however it is spelled: an escape is read as
the character that it stands for, and what spells a text as the text (`Spells.isKey`).
-/

namespace ContractHost.Decimal

/-! ## Digits -/

/-- The byte of a digit is a digit. -/
lemma isDigit_digitByte {d : Nat} (h : d < 10) : isDigit (digitByte d) = true := by
  have : ∀ d < 10, isDigit (digitByte d) = true := by decide
  exact this d h

/-- The byte of a digit stands for that digit. -/
lemma digitOfByte_digitByte {d : Nat} (h : d < 10) : digitOfByte (digitByte d) = d := by
  have : ∀ d < 10, digitOfByte (digitByte d) = d := by decide
  exact this d h

/-- A number below ten is its only digit. -/
lemma digits_of_lt {n : Nat} (h : n < 10) : digits n = [n] := by
  rw [digits, if_pos h]

/-- Only zero is written with a zero in front. -/
lemma digits_eq_cons (n : Nat) : ∃ d ds, digits n = d :: ds ∧ (d ≠ 0 ∨ n = 0 ∧ ds = []) := by
  fun_induction digits n with
  | case1 n h =>
    refine ⟨n, [], rfl, ?_⟩
    rcases Nat.eq_zero_or_pos n with rfl | hpos
    · exact Or.inr ⟨rfl, rfl⟩
    · exact Or.inl (Nat.ne_of_gt hpos)
  | case2 n h ih =>
    obtain ⟨d, ds, hds, hd⟩ := ih
    refine ⟨d, ds ++ [n % 10], by rw [hds, List.cons_append], Or.inl ?_⟩
    rcases hd with hd | ⟨hn, _⟩
    · exact hd
    · omega

end ContractHost.Decimal

namespace ContractHost.Json

open ContractHost.Decimal

/-! ## Numerals -/

/-- What ends a value starts with no digit. -/
lemma Ends.isDigit_eq_false {b : UInt8} {s : List UInt8} (h : Ends (b :: s)) :
    isDigit b = false := by
  have := h b s rfl
  simp only [continuesNumeral, Bool.or_eq_false_iff] at this
  exact this.1.1.1

/-- Digits are read up to the end of the value. -/
lemma spanDigits_append {ds : List Nat} {rest : List UInt8} (hd : ∀ d ∈ ds, d < 10)
    (hr : Ends rest) : spanDigits (ds.map digitByte ++ rest) = (ds, rest) := by
  have hall : ∀ b ∈ ds.map digitByte, isDigit b = true := by
    intro b hb
    obtain ⟨d, hmem, rfl⟩ := List.mem_map.1 hb
    exact isDigit_digitByte (hd d hmem)
  have htake : rest.takeWhile isDigit = [] := by
    cases rest with
    | nil => rfl
    | cons b rest => rw [List.takeWhile_cons_of_neg (by simp [hr.isDigit_eq_false])]
  have hdrop : rest.dropWhile isDigit = rest := by
    cases rest with
    | nil => rfl
    | cons b rest => rw [List.dropWhile_cons_of_neg (by simp [hr.isDigit_eq_false])]
  have hback : (ds.map digitByte).map digitOfByte = ds := by
    rw [List.map_map]
    conv_rhs => rw [← List.map_id ds]
    exact List.map_congr_left fun d hmem => digitOfByte_digitByte (hd d hmem)
  rw [spanDigits, List.takeWhile_append_of_pos hall, List.dropWhile_append_of_pos hall, htake,
    hdrop, List.append_nil, hback]

/-- The whole part of a numeral is the number that was written. -/
lemma wholePart_natBytes (n : Nat) {rest : List UInt8} (hr : Ends rest) :
    wholePart (natBytes n ++ rest) = .ok (digits n, rest) := by
  have hspan := spanDigits_append (fun d hd => lt_ten_of_mem_digits (n := n) hd) hr
  obtain ⟨d, ds, hds, hd⟩ := digits_eq_cons n
  have hlt : d < 10 := lt_ten_of_mem_digits (n := n) (by rw [hds]; exact List.mem_cons_self)
  rw [natBytes]
  rw [hds, List.map_cons, List.cons_append] at hspan ⊢
  rcases hd with hd | ⟨rfl, rfl⟩
  · have hne : digitByte d ≠ Byte.zero := by
      have : ∀ d < 10, d ≠ 0 → digitByte d ≠ Byte.zero := by decide
      exact this d hlt hd
    simp only [wholePart, if_neg hne, isDigit_digitByte hlt, if_true, hspan]
  · rw [digits_of_lt (by decide)] at hds
    cases hds
    cases rest with
    | nil => rfl
    | cons b rest =>
      have hzero : digitByte 0 = Byte.zero := by decide
      simp [wholePart, hzero, hr.isDigit_eq_false]

/-- Behind a numeral that ends there is no fraction. -/
lemma fractionPart_of_ends {s : List UInt8} (h : Ends s) : fractionPart s = .ok (none, s) := by
  cases s with
  | nil => rfl
  | cons b s =>
    have hb := h b s rfl
    simp only [continuesNumeral, Bool.or_eq_false_iff, decide_eq_false_iff_not] at hb
    rw [fractionPart, if_neg hb.1.1.2]

/-- Behind a numeral that ends there is no exponent. -/
lemma exponentPart_of_ends {s : List UInt8} (h : Ends s) : exponentPart s = .ok (none, s) := by
  cases s with
  | nil => rfl
  | cons b s =>
    have hb := h b s rfl
    simp only [continuesNumeral, Bool.or_eq_false_iff, decide_eq_false_iff_not] at hb
    simp [exponentPart, hb.1.2, hb.2]

/-- The digits of a number, with a sign or without, are read as a numeral without fraction and
exponent. -/
lemma unsignedNumeral_natBytes (negative : Bool) (n : Nat) {rest : List UInt8} (hr : Ends rest) :
    unsignedNumeral negative (natBytes n ++ rest) =
      .ok (⟨negative, digits n, none, none⟩, rest) := by
  simp only [unsignedNumeral, wholePart_natBytes n hr, fractionPart_of_ends hr,
    exponentPart_of_ends hr]

/-- An integer is read as its sign and its digits. -/
lemma numeral_intBytes (z : Int) {rest : List UInt8} (hr : Ends rest) :
    numeral (intBytes z ++ rest) = .ok (⟨decide (z < 0), digits z.natAbs, none, none⟩, rest) := by
  cases z with
  | ofNat n =>
    have hnat := unsignedNumeral_natBytes false n hr
    obtain ⟨d, ds, hds, _⟩ := digits_eq_cons n
    have hlt : d < 10 := lt_ten_of_mem_digits (n := n) (by rw [hds]; exact List.mem_cons_self)
    have hne : digitByte d ≠ Byte.minus := by
      have : ∀ d < 10, digitByte d ≠ Byte.minus := by decide
      exact this d hlt
    rw [natBytes, hds, List.map_cons, List.cons_append] at hnat
    rw [intBytes, natBytes, hds, List.map_cons, List.cons_append, numeral, if_neg hne, hnat, ← hds]
    simp
  | negSucc n =>
    have hneg : decide (Int.negSucc n < 0) = true := by simp [Int.negSucc_lt_zero]
    rw [intBytes, List.cons_append, numeral, if_pos rfl, unsignedNumeral_natBytes true _ hr, hneg]
    rfl

/-- A number does not get smaller when digits are taken in. -/
lemma le_foldl_digits (ds : List Nat) (m : Nat) : m ≤ ds.foldl (fun n d => 10 * n + d) m := by
  induction ds generalizing m with
  | nil => exact Nat.le_refl m
  | cons d ds ih =>
    have hle := ih (10 * m + d)
    rw [List.foldl_cons]
    omega

/-- Digits are taken in as long as the number that they stand for fits in a word. -/
lemma absorb_of_lt {m : Nat} {ds : List Nat}
    (h : ds.foldl (fun n d => 10 * n + d) m < UInt64.size) :
    absorb m ds = (ds.foldl (fun n d => 10 * n + d) m, 0) := by
  induction ds generalizing m with
  | nil => rfl
  | cons d ds ih =>
    rw [List.foldl_cons] at h ⊢
    rw [absorb, if_pos (Nat.lt_of_le_of_lt (le_foldl_digits ds _) h), ih h]

/-- An integer that numerals without fraction and exponent can stand for. -/
def IsExact (z : Int) : Prop := -(leastMagnitude : Int) ≤ z ∧ z < UInt64.size

/-- An unsigned word is exact. -/
lemma isExact_uint64 (n : UInt64) : IsExact n.toNat := by
  have hlt := n.toNat_lt_size
  constructor <;> simp only [leastMagnitude, UInt64.size] at hlt ⊢ <;> omega

/-- The digits of an exact integer stand for it. -/
lemma value?_of_isExact {z : Int} (hz : IsExact z) :
    (⟨decide (z < 0), digits z.natAbs, none, none⟩ : Numeral).value? = some (.integer z) := by
  obtain ⟨hlow, hhigh⟩ := hz
  have hval : (digits z.natAbs).foldl (fun n d => 10 * n + d) 0 = z.natAbs :=
    ofDigits_digits z.natAbs
  have habs : absorb 0 (digits z.natAbs) = (z.natAbs, 0) := by
    have hlt : z.natAbs < UInt64.size := by
      simp only [leastMagnitude, UInt64.size] at hlow hhigh ⊢
      omega
    rw [absorb_of_lt (by rw [hval]; exact hlt), hval]
  have hint : (⟨decide (z < 0), digits z.natAbs, none, none⟩ : Numeral).integer? = some z := by
    simp only [Numeral.integer?, habs]
    by_cases hneg : z < 0
    · have hpos : 0 < z.natAbs := by omega
      have hle : z.natAbs ≤ leastMagnitude := by omega
      simp only [hneg, hpos, hle, decide_true, Bool.and_self, if_true]
      congr 1
      omega
    · simp only [hneg, decide_false, Bool.false_eq_true, if_false]
      congr 1
      omega
  simp only [Numeral.value?, hint]

/-- An exact integer is read back from its digits. -/
lemma number_intBytes {z : Int} (hz : IsExact z) {rest : List UInt8} (hr : Ends rest) :
    number (intBytes z ++ rest) = .ok (.integer z, rest) := by
  simp only [number, numeral_intBytes z hr, value?_of_isExact hz]

/-- An integer starts with a minus sign or a digit. -/
lemma intBytes_eq_cons (z : Int) :
    ∃ b s, intBytes z = b :: s ∧ (b = Byte.minus || isDigit b) = true := by
  cases z with
  | ofNat n =>
    obtain ⟨d, ds, hds, _⟩ := digits_eq_cons n
    have hlt : d < 10 := lt_ten_of_mem_digits (n := n) (by rw [hds]; exact List.mem_cons_self)
    exact ⟨digitByte d, ds.map digitByte, by rw [intBytes, natBytes, hds, List.map_cons],
      by simp [isDigit_digitByte hlt]⟩
  | negSucc n => exact ⟨Byte.minus, natBytes (n + 1), rfl, rfl⟩

/-! ## Escapes -/

/-- A hexadecimal digit is read as its value. -/
lemma HexDigit.hexDigit?_eq {b : UInt8} {d : Nat} (h : HexDigit b d) : hexDigit? b = some d := by
  rcases h with @⟨d, hd⟩ | @⟨d, hd⟩ | @⟨d, hd⟩ <;> interval_cases d <;> rfl

/-- Four hexadecimal digits are read as the unit that they name. -/
lemma HexUnit.hexUnit_append {ds : List UInt8} {n : Nat} (h : HexUnit ds n) (rest : List UInt8) :
    hexUnit (ds ++ rest) = .ok (n, rest) := by
  obtain ⟨ha, hb, hc, hd⟩ := h
  simp only [List.cons_append, List.nil_append, hexUnit, ha.hexDigit?_eq, hb.hexDigit?_eq,
    hc.hexDigit?_eq, hd.hexDigit?_eq]

/-- The letter of a short escape is read as its character. -/
lemma letterEscape?_eq_some {b : UInt8} {c : Char} (h : (b, c) ∈ shortEscapes) :
    letterEscape? b = some c := by
  have : ∀ e ∈ shortEscapes, letterEscape? e.1 = some e.2 := by decide
  exact this (b, c) h

/-- A character is no half of a pair. -/
lemma isSurrogate_eq_false (c : Char) :
    isHighSurrogate c.toNat = false ∧ isLowSurrogate c.toNat = false := by
  have hvalid : c.toNat < 0xD800 ∨ 0xDFFF < c.toNat ∧ c.toNat < 0x110000 := c.valid
  simp only [isHighSurrogate, isLowSurrogate, Bool.and_eq_false_iff, decide_eq_false_iff_not]
  omega

/-- The units of a character beyond the basic plane are the halves of a pair, and the pair stands
for the character. -/
lemma surrogates_of_le {c : Char} (h : 0x10000 ≤ c.toNat) {high low : Nat}
    (hhigh : high = 0xD800 + (c.toNat - 0x10000) / 1024)
    (hlow : low = 0xDC00 + (c.toNat - 0x10000) % 1024) :
    isLowSurrogate high = false ∧ isHighSurrogate high = true ∧ isLowSurrogate low = true ∧
      (high - 0xD800) * 1024 + (low - 0xDC00) + 0x10000 = c.toNat := by
  have hvalid : c.toNat < 0xD800 ∨ 0xDFFF < c.toNat ∧ c.toNat < 0x110000 := c.valid
  simp only [isHighSurrogate, isLowSurrogate, Bool.and_eq_false_iff, Bool.and_eq_true,
    decide_eq_false_iff_not, decide_eq_true_eq]
  omega

/-- An escape is read as its character. -/
lemma EscapeOf.escape_append {esc : List UInt8} {c : Char} (h : EscapeOf esc c)
    (rest : List UInt8) : escape (esc ++ rest) = .ok (c, rest) := by
  have hu : letterEscape? Byte.unit = none := by decide
  rcases h with hletter | ⟨_, hunit⟩ | ⟨hle, hhigh, hlow⟩
  · simp only [List.singleton_append, escape, letterEscape?_eq_some hletter]
  · obtain ⟨hnoHigh, hnoLow⟩ := isSurrogate_eq_false c
    simp only [List.cons_append, escape, hu, if_true, unitEscape, hunit.hexUnit_append, hnoHigh,
      hnoLow, Bool.false_eq_true, if_false, Char.ofNat_toNat]
  · obtain ⟨hnoLow, hisHigh, hisLow, hpair⟩ := surrogates_of_le hle rfl rfl
    simp only [List.cons_append, List.append_assoc, escape, hu, if_true, unitEscape,
      hhigh.hexUnit_append, hnoLow, hisHigh, Bool.false_eq_true, if_false, secondUnit, keyword,
      hlow.hexUnit_append, hisLow, hpair, Char.ofNat_toNat]

/-! ## Strings -/

/-- An escape stands for its character in a string. -/
lemma stringBytes_escape {acc : ByteArray} {s rest : List UInt8} {c : Char}
    (h : escape s = .ok (c, rest)) :
    stringBytes acc (Byte.backslash :: s) =
      stringBytes (acc ++ (String.singleton c).toUTF8) rest := by
  have hne : Byte.backslash ≠ Byte.quote := by decide
  rw [stringBytes, if_neg hne, if_pos rfl]
  split
  next he => rw [h] at he; cases he
  next he =>
    rw [h] at he
    cases he
    rfl

/-- A byte that needs no escape stands for itself. -/
lemma stringBytes_plain {acc : ByteArray} {b : UInt8} (s : List UInt8) (hq : b ≠ Byte.quote)
    (hb : b ≠ Byte.backslash) (h : 32 ≤ b) :
    stringBytes acc (b :: s) = stringBytes (acc.push b) s := by
  have hlt : ¬ b < 32 := UInt8.not_lt.2 h
  rw [stringBytes, if_neg hq, if_neg hb, if_neg hlt]

/-- The bytes of a text, as an array. -/
lemma toByteArray_textBytes (s : String) : (textBytes s).toByteArray = s.toUTF8 :=
  ByteArray.ext List.data_toByteArray

/-- What spells a text is read up to the closing quote. -/
lemma Spells.stringBytes_append {text bytes : List UInt8} (h : Spells text bytes)
    (acc : ByteArray) (rest : List UInt8) :
    stringBytes acc (text ++ Byte.quote :: rest) = .ok (acc ++ bytes.toByteArray, rest) := by
  induction h generalizing acc with
  | nil =>
    rw [List.nil_append, stringBytes, if_pos rfl]
    simp
  | @plain b text bytes hq hb hle _ ih =>
    have hpush : acc.push b ++ bytes.toByteArray = acc ++ (b :: bytes).toByteArray := by
      rw [← ByteArray.append_toByteArray_singleton, ByteArray.append_assoc,
        ← List.toByteArray_append, List.singleton_append]
    rw [List.cons_append, stringBytes_plain _ hq hb hle, ih, hpush]
  | @escaped esc text bytes c hesc _ ih =>
    have hchar : acc ++ (String.singleton c).toUTF8 ++ bytes.toByteArray =
        acc ++ (textBytes (String.singleton c) ++ bytes).toByteArray := by
      rw [List.toByteArray_append, toByteArray_textBytes, ByteArray.append_assoc]
    rw [List.cons_append, List.append_assoc, stringBytes_escape (hesc.escape_append _), ih, hchar]

/-- What spells a text is read as the text behind its opening quote. -/
lemma Spells.isKey {text : List UInt8} {s : String} (h : Spells text (textBytes s)) :
    IsKey (text ++ [Byte.quote]) s := by
  intro rest
  have hstrict : Utf8.strict s.toUTF8 = some s := Utf8.strict_eq_some_iff.2 rfl
  rw [List.append_assoc, List.singleton_append, stringBody, h.stringBytes_append,
    ByteArray.empty_append, toByteArray_textBytes]
  simp only [hstrict]

end ContractHost.Json
