import Mathlib.Tactic.Common
import ContractHost.Text.Quoted

/-!
# The characters of quoted text

A character is written inside quotes by a short escape, by its code point in hexadecimal digits, or
as it is (`Text.WrittenAs`).  Every character of quoted text is printable
(`Text.isPrintable_of_mem_quotedChars`), so quoted text stands on one line
(`Text.lineFeed_not_mem_quoted`).  What is written for a character tells where it ends and which
character it is (`Text.WrittenAs.unique`), whatever may stand for itself, and none of it begins with
a quote.  So quoted text can be read back in one way only, also with something behind it
(`Text.quotedChars_append_inj`).
-/

namespace ContractHost.Text

/-! ## How a character is written -/

/-- The letters and marks of the short escapes. -/
def escapeLetters : List Char := ['0', 't', 'n', 'r', '"', '\\']

/-- The characters that have a short escape, each with the letter or mark of it. -/
def shortEscapes : List (Char × Char) :=
  ['\x00', '\t', '\n', '\r', '"', '\\'].zip escapeLetters

/-- The ways to write a character inside quotes.  Which of them is taken is left open, save that a
character that stands for itself is printable and neither a quote nor a backslash. -/
inductive WrittenAs (c : Char) : List Char → Prop
  | short {letter : Char} (h : (c, letter) ∈ shortEscapes) : WrittenAs c ['\\', letter]
  | number : WrittenAs c (codePoint c)
  | itself (hprintable : isPrintable c = true) (hquote : c ≠ '"') (hbackslash : c ≠ '\\') :
      WrittenAs c [c]

/-- A character is written in one of the ways. -/
lemma writtenAs_escaped (c : Char) : WrittenAs c (escaped c) := by
  by_cases hshort : c ∈ shortEscapes.map Prod.fst
  · obtain ⟨⟨_, letter⟩, hletter, rfl⟩ := List.mem_map.1 hshort
    have hall : ∀ p ∈ shortEscapes, escaped p.1 = ['\\', p.2] := by decide
    rw [hall _ hletter]
    exact .short hletter
  · obtain ⟨hnul, htab, hfeed, hreturn, hquote, hbackslash⟩ :
        c ≠ '\x00' ∧ c ≠ '\t' ∧ c ≠ '\n' ∧ c ≠ '\r' ∧ c ≠ '"' ∧ c ≠ '\\' := by
      simpa [shortEscapes, escapeLetters] using hshort
    simp only [escaped, hnul, htab, hfeed, hreturn, hquote, hbackslash, if_false]
    split
    · exact .number
    next hplain =>
      simp only [Bool.or_eq_true, Bool.not_eq_true', not_or, Bool.not_eq_false] at hplain
      exact .itself hplain.2 hquote hbackslash

/-! ## Printable characters -/

/-- What is written for a number to a base is made of the digits below the base. -/
lemma exists_digitChar_of_mem_toDigits {b n : Nat} {c : Char} (hb : 1 < b)
    (h : c ∈ Nat.toDigits b n) : ∃ d < b, c = Nat.digitChar d := by
  induction n using Nat.strongRecOn with
  | ind n ih =>
    by_cases hn : n < b
    · rw [Nat.toDigits_of_lt_base hn, List.mem_singleton] at h
      exact ⟨n, hn, h⟩
    · have hle : b ≤ n := Nat.le_of_not_lt hn
      rw [Nat.toDigits_of_base_le hb hle, List.mem_append, List.mem_singleton] at h
      rcases h with h | h
      · exact ih (n / b) (Nat.div_lt_self (by omega) hb) h
      · exact ⟨n % b, Nat.mod_lt n (by omega), h⟩

/-- Hexadecimal digits are printable. -/
lemma isPrintable_digitChar {d : Nat} (h : d < 16) : isPrintable (Nat.digitChar d) = true := by
  have hall : ∀ d < 16, isPrintable (Nat.digitChar d) = true := by decide +kernel
  exact hall d h

/-- What is written for a code point is printable. -/
lemma isPrintable_of_mem_codePoint {c d : Char} (h : d ∈ codePoint c) : isPrintable d = true := by
  have hframe : ∀ d ∈ ['\\', 'u', '\x7b', '\x7d'], isPrintable d = true :=
    List.all_eq_true.1 (by decide +kernel)
  simp only [codePoint, List.cons_append, List.mem_cons, List.mem_append, List.not_mem_nil,
    or_false] at h
  rcases h with rfl | rfl | rfl | h | rfl
  · exact hframe _ (by simp)
  · exact hframe _ (by simp)
  · exact hframe _ (by simp)
  · obtain ⟨n, hn, rfl⟩ := exists_digitChar_of_mem_toDigits (by decide) h
    exact isPrintable_digitChar hn
  · exact hframe _ (by simp)

namespace WrittenAs

variable {c d : Char} {u v s t : List Char}

/-- Whatever is written for a character is printable. -/
lemma isPrintable_of_mem (h : WrittenAs c u) (hd : d ∈ u) : isPrintable d = true := by
  have hletters : ∀ letter ∈ '\\' :: escapeLetters, isPrintable letter = true :=
    List.all_eq_true.1 (by decide +kernel)
  cases h with
  | short hletter =>
    refine hletters d ?_
    rcases List.mem_cons.1 hd with rfl | hd
    · exact List.mem_cons_self
    · obtain rfl := List.mem_singleton.1 hd
      exact List.mem_cons_of_mem _ (List.of_mem_zip hletter).2
  | number => exact isPrintable_of_mem_codePoint hd
  | itself hprintable _ _ =>
    obtain rfl := List.mem_singleton.1 hd
    exact hprintable

end WrittenAs

/-- Every character of quoted text is printable. -/
theorem isPrintable_of_mem_quotedChars {s : List Char} {d : Char} (h : d ∈ quotedChars s) :
    isPrintable d = true := by
  have hquote : isPrintable '"' = true := by decide +kernel
  simp only [quotedChars, List.cons_append, List.mem_cons, List.mem_append, List.mem_flatMap,
    List.not_mem_nil, or_false] at h
  rcases h with rfl | ⟨c, -, hc⟩ | rfl
  · exact hquote
  · exact (writtenAs_escaped c).isPrintable_of_mem hc
  · exact hquote

/-- Quoted text has no line feed. -/
theorem lineFeed_not_mem_quoted (s : String) : '\n' ∉ (quoted s).toList := by
  have hfeed : isPrintable '\n' = false := by decide +kernel
  intro h
  rw [quoted, String.toList_ofList] at h
  rw [isPrintable_of_mem_quotedChars h] at hfeed
  cases hfeed

/-! ## Reading back -/

/-- Hexadecimal digits are told apart. -/
lemma digitChar_injOn {m n : Nat} (hm : m < 16) (hn : n < 16)
    (h : Nat.digitChar m = Nat.digitChar n) : m = n := by
  have hall : ∀ m < 16, ∀ n < 16, Nat.digitChar m = Nat.digitChar n → m = n := by decide
  exact hall m hm n hn h

/-- The hexadecimal digits of a number determine it. -/
lemma toDigits_injective : Function.Injective (Nat.toDigits 16) := by
  intro m
  induction m using Nat.strongRecOn with
  | ind m ih =>
    intro n h
    rcases Nat.lt_or_ge m 16 with hm | hm <;> rcases Nat.lt_or_ge n 16 with hn | hn
    · rw [Nat.toDigits_of_lt_base hm, Nat.toDigits_of_lt_base hn] at h
      exact digitChar_injOn hm hn (List.singleton_inj.1 h)
    · rw [Nat.toDigits_of_lt_base hm, Nat.toDigits_of_base_le (by decide) hn] at h
      simp [List.singleton_eq_append_iff, Nat.toDigits_ne_nil] at h
    · rw [Nat.toDigits_of_base_le (by decide) hm, Nat.toDigits_of_lt_base hn] at h
      simp [List.append_eq_singleton_iff, Nat.toDigits_ne_nil] at h
    · rw [Nat.toDigits_of_base_le (by decide) hm, Nat.toDigits_of_base_le (by decide) hn] at h
      obtain ⟨hfront, hlast⟩ := List.append_singleton_inj.1 h
      have hquotient : m / 16 = n / 16 := ih (m / 16) (by omega) hfront
      have hremainder : m % 16 = n % 16 :=
        digitChar_injOn (Nat.mod_lt m (by decide)) (Nat.mod_lt n (by decide)) hlast
      omega

/-- What is written for a code point tells where it ends and which it is. -/
lemma codePoint_append_inj {c d : Char} {s t : List Char}
    (h : codePoint c ++ s = codePoint d ++ t) : c = d ∧ s = t := by
  -- No digit is the closing brace, so the digits are what stands in front of the first one.
  have hbrace : ∀ n < 16, Nat.digitChar n ≠ '\x7d' := by decide
  have htake : ∀ (n : Nat) (rest : List Char),
      (Nat.toDigits 16 n ++ '\x7d' :: rest).takeWhile (· ≠ '\x7d') = Nat.toDigits 16 n := by
    intro n rest
    rw [List.takeWhile_append_of_pos, List.takeWhile_cons_of_neg (by simp), List.append_nil]
    intro x hx
    obtain ⟨k, hk, rfl⟩ := exists_digitChar_of_mem_toDigits (by decide) hx
    exact decide_eq_true (hbrace k hk)
  simp only [codePoint, List.cons_append, List.append_assoc, List.cons.injEq, true_and,
    List.nil_append] at h
  have hdigits : Nat.toDigits 16 c.toNat = Nat.toDigits 16 d.toNat := by
    rw [← htake c.toNat s, h, htake]
  rw [hdigits] at h
  exact ⟨Char.toNat_inj.1 (toDigits_injective hdigits),
    (List.cons.inj (List.append_cancel_left h)).2⟩

/-- No two characters have the same short escape. -/
lemma shortEscapes_inj {c d letter : Char} (hc : (c, letter) ∈ shortEscapes)
    (hd : (d, letter) ∈ shortEscapes) : c = d := by
  have hall : ∀ p ∈ shortEscapes, ∀ q ∈ shortEscapes, p.2 = q.2 → p.1 = q.1 := by decide
  exact hall _ hc _ hd rfl

/-- No short escape begins like the escape by a code point. -/
lemma letter_ne_u {c letter : Char} (h : (c, letter) ∈ shortEscapes) : letter ≠ 'u' := by
  rintro rfl
  exact absurd (List.of_mem_zip h).2 (by decide)

namespace WrittenAs

variable {c d : Char} {u v s t : List Char}

/-- What is written for a character does not begin with a quote. -/
lemma append_ne_quote (h : WrittenAs c u) : u ++ s ≠ '"' :: t := by
  cases h with
  | short _ => simp
  | number => simp [codePoint]
  | itself _ hquote _ => simp [hquote]

/-- What is written for a character tells where it ends and which character it is. -/
theorem unique (hc : WrittenAs c u) (hd : WrittenAs d v) (h : u ++ s = v ++ t) :
    c = d ∧ s = t := by
  -- The first character tells whether there is an escape, and the second one which kind it is.
  cases hc with
  | short hc =>
    cases hd with
    | short hd =>
      simp only [List.cons_append, List.nil_append, List.cons.injEq, true_and] at h
      obtain ⟨rfl, rfl⟩ := h
      exact ⟨shortEscapes_inj hc hd, rfl⟩
    | number => simp [codePoint, letter_ne_u hc] at h
    | itself _ _ hbackslash => simp [hbackslash.symm] at h
  | number =>
    cases hd with
    | short hd => simp [codePoint, (letter_ne_u hd).symm] at h
    | number => exact codePoint_append_inj h
    | itself _ _ hbackslash => simp [codePoint, hbackslash.symm] at h
  | itself _ _ hbackslash =>
    cases hd with
    | short _ => simp [hbackslash] at h
    | number => simp [codePoint, hbackslash] at h
    | itself _ _ _ => exact List.cons.inj h

end WrittenAs

/-- Quoted text tells where it ends and which text it is, whatever stands behind it. -/
theorem quotedChars_append_inj {s t u v : List Char} :
    quotedChars s ++ u = quotedChars t ++ v ↔ s = t ∧ u = v := by
  refine ⟨fun h => ?_, fun ⟨hs, hu⟩ => hs ▸ hu ▸ rfl⟩
  simp only [quotedChars, List.cons_append, List.append_assoc, List.cons.injEq, true_and,
    List.nil_append] at h
  -- A text that ends before the other has its closing quote where a character of the other begins.
  induction s generalizing t with
  | nil =>
    cases t with
    | nil => exact ⟨rfl, (List.cons.inj h).2⟩
    | cons d t =>
      rw [List.flatMap_cons, List.append_assoc] at h
      exact absurd h.symm (writtenAs_escaped d).append_ne_quote
  | cons c s ih =>
    rw [List.flatMap_cons, List.append_assoc] at h
    cases t with
    | nil => exact absurd h (writtenAs_escaped c).append_ne_quote
    | cons d t =>
      rw [List.flatMap_cons, List.append_assoc] at h
      obtain ⟨rfl, hrest⟩ := (writtenAs_escaped c).unique (writtenAs_escaped d) h
      obtain ⟨rfl, hbehind⟩ := ih hrest
      exact ⟨rfl, hbehind⟩

/-- Quoted text is that of one text only. -/
lemma quotedChars_inj {s t : List Char} : quotedChars s = quotedChars t ↔ s = t := by
  simpa using quotedChars_append_inj (s := s) (t := t) (u := []) (v := [])

end ContractHost.Text
