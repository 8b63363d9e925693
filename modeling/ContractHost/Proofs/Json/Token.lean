import Mathlib.Tactic.Common
import ContractHost.Proofs.Json.Passing

/-!
# Numerals and strings of any form

A numeral of any form is read as its sign, its digits, and the fraction and the exponent that are
there (`exists_numeral`), and is answered by a number, or refused if it is too large for one.  A
string of any form is answered by its text or by an error, alike whatever stands behind its closing
quote (`StringForm.exists_stringBody`): a byte that encodes nothing or half a pair is found out
inside the string.
-/

namespace ContractHost.Json

open ContractHost.Decimal

/-! ## Numerals -/

/-- Digits are read up to their end. -/
lemma spanDigits_allDigits {ds s : List UInt8} (hd : AllDigits ds) (hs : EndsDigits s) :
    spanDigits (ds ++ s) = (ds.map digitOfByte, s) := by
  have htake : s.takeWhile isDigit = [] := by
    rcases s with _ | ⟨b, s⟩
    · rfl
    · rw [List.takeWhile_cons_of_neg (by simp [hs b s rfl])]
  rw [spanDigits, List.takeWhile_append_of_pos hd, htake, List.append_nil,
    dropWhile_isDigit_append hd hs]

/-- A digit in front of digits. -/
lemma AllDigits.cons {b : UInt8} {ds : List UInt8} (hb : isDigit b = true) (hd : AllDigits ds) :
    AllDigits (b :: ds) := by
  intro c hc
  rcases List.mem_cons.1 hc with rfl | hc
  · exact hb
  · exact hd c hc

/-- At least one digit is read up to the end of the digits. -/
lemma someDigits_append {b : UInt8} {ds s : List UInt8} (hb : isDigit b = true)
    (hd : AllDigits ds) (hs : EndsDigits s) :
    someDigits (b :: (ds ++ s)) = .ok ((b :: ds).map digitOfByte, s) := by
  rw [← List.cons_append, someDigits, spanDigits_allDigits (hd.cons hb) hs]
  rfl

/-- The whole part of a numeral is read as its digits. -/
lemma WholeForm.wholePart_append {whole s : List UInt8} (h : WholeForm whole)
    (hs : EndsDigits s) : wholePart (whole ++ s) = .ok (whole.map digitOfByte, s) := by
  rcases h with _ | @⟨b, ds, hb, hne, hd⟩
  · rcases s with _ | ⟨c, s⟩
    · rfl
    · have hzero : digitOfByte Byte.zero = 0 := rfl
      simp [wholePart, hs c s rfl, hzero]
  · have hspan := spanDigits_allDigits (hd.cons hb) hs
    rw [List.cons_append] at hspan ⊢
    simp [wholePart, hne, hb, hspan]

/-- The fraction of a numeral is read as one, if it is there. -/
lemma FractionForm.exists_fractionPart {fraction : List UInt8} (h : FractionForm fraction) :
    ∃ f, (f = Option.none ↔ fraction = []) ∧
      ∀ s, EndsFraction s → fractionPart (fraction ++ s) = .ok (f, s) := by
  rcases h with _ | @⟨b, ds, hb, hd⟩
  · refine ⟨Option.none, by simp, fun s hs => ?_⟩
    rcases s with _ | ⟨c, s⟩
    · rfl
    · rw [List.nil_append, fractionPart, if_neg (hs c s rfl).2]
  · refine ⟨some ((b :: ds).map digitOfByte), by simp, fun s hs => ?_⟩
    simp only [List.cons_append, fractionPart, if_true, someDigits_append hb hd hs.endsDigits]

/-- The sign of an exponent is read up to the first digit. -/
lemma exists_exponentSign {sign : List UInt8} {b : UInt8}
    (hsign : sign ∈ [[], [Byte.plus], [Byte.minus]]) (hb : isDigit b = true) :
    ∃ negative, ∀ s, exponentSign (sign ++ b :: s) = (negative, b :: s) := by
  obtain ⟨hplus, hminus⟩ := ne_sign_of_isDigit hb
  simp only [List.mem_cons, List.not_mem_nil, or_false] at hsign
  rcases hsign with rfl | rfl | rfl
  · exact ⟨false, fun s => by simp [exponentSign, hplus, hminus]⟩
  · exact ⟨false, fun s => rfl⟩
  · exact ⟨true, fun s => rfl⟩

/-- The exponent of a numeral is read as one, if it is there. -/
lemma ExponentForm.exists_exponentPart {exponent : List UInt8} (h : ExponentForm exponent) :
    ∃ e, (e = Option.none ↔ exponent = []) ∧
      ∀ rest, Ends rest → exponentPart (exponent ++ rest) = .ok (e, rest) := by
  rcases h with _ | @⟨e, b, sign, ds, he, hsign, hb, hd⟩
  · exact ⟨Option.none, by simp, fun rest hr => exponentPart_of_ends hr⟩
  · obtain ⟨negative, hnegative⟩ := exists_exponentSign hsign hb
    let value : Int := ofDigits ((b :: ds).map digitOfByte)
    refine ⟨some (if negative then -value else value), by simp, fun rest hr => ?_⟩
    have hdigits := someDigits_append hb hd hr.endsDigits
    simp only [List.cons_append, List.append_assoc, exponentPart, hnegative, hdigits]
    rw [if_pos (by simpa using he)]

/-- A numeral is read as its sign, its digits, and the fraction and the exponent that are there. -/
lemma exists_numeral (negative : Bool) {whole fraction exponent : List UInt8}
    (hw : WholeForm whole) (hf : FractionForm fraction) (he : ExponentForm exponent) :
    ∃ f e, (f = none ↔ fraction = []) ∧ (e = none ↔ exponent = []) ∧
      ∀ rest, Ends rest →
        numeral (signBytes negative ++ (whole ++ (fraction ++ exponent)) ++ rest) =
          .ok (⟨negative, whole.map digitOfByte, f, e⟩, rest) := by
  obtain ⟨f, hf', hfraction⟩ := hf.exists_fractionPart
  obtain ⟨e, he', hexponent⟩ := he.exists_exponentPart
  refine ⟨f, e, hf', he', fun rest hr => ?_⟩
  have hends := he.endsFraction_append hr
  have hunsigned : unsignedNumeral negative (whole ++ (fraction ++ (exponent ++ rest))) =
      .ok (⟨negative, whole.map digitOfByte, f, e⟩, rest) := by
    simp only [unsignedNumeral, hw.wholePart_append (hf.endsDigits_append hends),
      hfraction _ hends, hexponent rest hr]
  rcases negative with _ | _
  · obtain ⟨b, s, rfl, hb⟩ := hw.exists_cons
    simp only [List.cons_append] at hunsigned
    simp [signBytes, numeral, (ne_sign_of_isDigit hb).2, hunsigned]
  · simp [signBytes, numeral, hunsigned]

/-- A numeral is answered by its value, or refused if it is too large. -/
lemma NumeralForm.exists_number {text : List UInt8} (h : NumeralForm text) :
    ∃ r : Except ReadError Number, ∀ rest, Ends rest →
      number (text ++ rest) = r.map fun n => (n, rest) := by
  obtain @⟨negative, whole, fraction, exponent, hw, hf, he⟩ := h
  obtain ⟨f, e, _, _, hnumeral⟩ := exists_numeral negative hw hf he
  rcases hvalue : (⟨negative, whole.map digitOfByte, f, e⟩ : Numeral).value? with _ | n
  · exact ⟨.error .malformed, fun rest hr => by simp only [number, hnumeral rest hr, hvalue]; rfl⟩
  · exact ⟨.ok n, fun rest hr => by simp only [number, hnumeral rest hr, hvalue]; rfl⟩

/-! ## Strings -/

/-- Behind the first half of a pair a string is answered alike whatever stands behind it. -/
lemma StringForm.secondUnit_cases {text : List UInt8} (h : StringForm text) (high : Nat) :
    (∃ e, ∀ rest, secondUnit high (text ++ Byte.quote :: rest) = .error e) ∨
      ∃ c text', StringForm text' ∧ text'.length ≤ text.length ∧
        ∀ rest, secondUnit high (text ++ Byte.quote :: rest) =
          .ok (c, text' ++ Byte.quote :: rest) := by
  have hletters : ∀ e ∈ shortEscapes, e.1 ≠ Byte.unit := by decide
  rcases h with _ | ⟨_, hb, _, _⟩ | @⟨_, text, @⟨b, c, hletter⟩ | @⟨ds, low, hunit⟩, htext⟩
  · exact .inl ⟨.malformed, fun rest => rfl⟩
  · exact .inl ⟨.malformed, fun rest => by simp [secondUnit, keyword, hb]⟩
  · exact .inl ⟨.malformed, fun rest => by simp [secondUnit, keyword, hletters _ hletter]⟩
  · have hread : ∀ rest, secondUnit high
        (Byte.backslash :: (Byte.unit :: ds ++ text) ++ Byte.quote :: rest) =
        if isLowSurrogate low then
          .ok (Char.ofNat ((high - 0xD800) * 1024 + (low - 0xDC00) + 0x10000),
            text ++ Byte.quote :: rest)
        else .error .malformed := by
      intro rest
      simp only [secondUnit, List.cons_append, List.append_assoc, keyword, if_true,
        hunit.hexUnit_append]
    by_cases hlow : isLowSurrogate low = true
    · refine .inr ⟨_, text, htext, ?_, fun rest => by rw [hread, if_pos hlow]⟩
      simp only [List.cons_append, List.length_cons, List.length_append]
      omega
    · exact .inl ⟨.malformed, fun rest => by rw [hread, if_neg hlow]⟩

/-- An escape in a string is answered alike whatever stands behind the string. -/
lemma EscapeForm.escape_cases {esc text : List UInt8} (he : EscapeForm esc)
    (ht : StringForm text) :
    (∃ e, ∀ rest, escape (esc ++ (text ++ Byte.quote :: rest)) = .error e) ∨
      ∃ c text', StringForm text' ∧ text'.length ≤ text.length ∧
        ∀ rest, escape (esc ++ (text ++ Byte.quote :: rest)) =
          .ok (c, text' ++ Byte.quote :: rest) := by
  have hu : letterEscape? Byte.unit = none := by decide
  rcases he with @⟨b, c, hletter⟩ | @⟨ds, n, hunit⟩
  · refine .inr ⟨c, text, ht, Nat.le_refl _, fun rest => ?_⟩
    rw [List.singleton_append, escape, letterEscape?_eq_some hletter]
  · simp only [List.cons_append, escape, hu, if_true, unitEscape, hunit.hexUnit_append]
    by_cases hlow : isLowSurrogate n = true
    · exact .inl ⟨.malformed, fun rest => by rw [if_pos hlow]⟩
    by_cases hhigh : isHighSurrogate n = true
    · simp only [if_neg hlow, if_pos hhigh]
      exact ht.secondUnit_cases n
    · exact .inr ⟨Char.ofNat n, text, ht, Nat.le_refl _,
        fun rest => by rw [if_neg hlow, if_neg hhigh]⟩

/-- An escape that is refused makes the string refused. -/
lemma stringBytes_escape_error {acc : ByteArray} {s : List UInt8} {e : ReadError}
    (h : escape s = .error e) : stringBytes acc (Byte.backslash :: s) = .error e := by
  have hne : Byte.backslash ≠ Byte.quote := by decide
  rw [stringBytes, if_neg hne, if_pos rfl]
  split
  next he =>
    rw [h] at he
    cases he
    rfl
  next he =>
    rw [h] at he
    cases he

/-- The bytes of a string are answered alike whatever stands behind it. -/
lemma StringForm.exists_stringBytes (n : Nat) :
    ∀ text, StringForm text → text.length ≤ n → ∀ acc, ∃ r : Except ReadError ByteArray,
      ∀ rest, stringBytes acc (text ++ Byte.quote :: rest) = r.map fun bytes => (bytes, rest) := by
  -- By induction on the length: a pair of escapes is read in one step.
  induction n with
  | zero =>
    intro text h hlen acc
    obtain rfl := List.eq_nil_of_length_eq_zero (Nat.le_zero.1 hlen)
    exact ⟨.ok acc, fun rest => by rw [List.nil_append, stringBytes, if_pos rfl]; rfl⟩
  | succ n ih =>
    intro text h hlen acc
    rcases h with _ | ⟨hq, hb, hle, htext⟩ | ⟨hesc, htext⟩
    · exact ⟨.ok acc, fun rest => by rw [List.nil_append, stringBytes, if_pos rfl]; rfl⟩
    · obtain ⟨r, hr⟩ := ih _ htext (by simpa using hlen) _
      exact ⟨r, fun rest => by rw [List.cons_append, stringBytes_plain _ hq hb hle, hr]⟩
    · simp only [List.length_cons, List.length_append] at hlen
      rcases hesc.escape_cases htext with ⟨e, he⟩ | ⟨c, text', htext', hlen', hc⟩
      · exact ⟨.error e, fun rest => by
          rw [List.cons_append, List.append_assoc, stringBytes_escape_error (he rest)]; rfl⟩
      · obtain ⟨r, hr⟩ := ih text' htext' (by omega) (acc ++ (String.singleton c).toUTF8)
        exact ⟨r, fun rest => by
          rw [List.cons_append, List.append_assoc, stringBytes_escape (hc rest), hr]⟩

/-- A string is answered alike whatever stands behind it: by its text, or by an error. -/
lemma StringForm.exists_stringBody {text : List UInt8} (h : StringForm text) :
    ∃ r : Except ReadError String, ∀ rest,
      stringBody (text ++ Byte.quote :: rest) = r.map fun s => (s, rest) := by
  obtain ⟨r, hr⟩ := StringForm.exists_stringBytes _ text h (Nat.le_refl _) ByteArray.empty
  rcases r with e | bytes
  · exact ⟨.error e, fun rest => by rw [stringBody, hr]; rfl⟩
  · rcases hstrict : Utf8.strict bytes with _ | s
    · exact ⟨.error .malformed, fun rest => by simp [stringBody, hr, Except.map, hstrict]⟩
    · exact ⟨.ok s, fun rest => by simp [stringBody, hr, Except.map, hstrict]⟩

/-- What spells a text is read as the text, up to the closing quote. -/
lemma Spells.stringBody_append {text : List UInt8} {s : String} (h : Spells text (textBytes s))
    (rest : List UInt8) : stringBody (text ++ Byte.quote :: rest) = .ok (s, rest) := by
  have hkey := h.isKey rest
  rwa [List.append_assoc, List.singleton_append] at hkey

end ContractHost.Json
