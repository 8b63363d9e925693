import Mathlib.Tactic.Common
import ContractHost.Proofs.Json.Form

/-!
# Well-formed texts are passed over

Every well-formed text is passed over wherever a value is expected, whatever is open around it
(`WellFormed.isPassed`): numerals and strings by their form, the parts of an array or an object one
after the other.
-/

namespace ContractHost.Json

open ContractHost.Decimal

/-! ## Numerals -/

/-- No digit stands here. -/
def EndsDigits (s : List UInt8) : Prop := ∀ b rest, s = b :: rest → isDigit b = false

/-- Neither a digit nor a point stands here. -/
def EndsFraction (s : List UInt8) : Prop :=
  ∀ b rest, s = b :: rest → isDigit b = false ∧ b ≠ Byte.point

/-- What ends a value starts with neither a digit nor a point. -/
lemma Ends.endsFraction {s : List UInt8} (h : Ends s) : EndsFraction s := by
  intro b rest hs
  have hb := h b rest hs
  simp only [continuesNumeral, Bool.or_eq_false_iff, decide_eq_false_iff_not] at hb
  exact ⟨hb.1.1.1, hb.1.1.2⟩

/-- An exponent starts with neither a digit nor a point. -/
lemma ExponentForm.endsFraction_append {exponent rest : List UInt8} (h : ExponentForm exponent)
    (hr : Ends rest) : EndsFraction (exponent ++ rest) := by
  rcases h with _ | ⟨he, _, _, _⟩
  · exact hr.endsFraction
  · intro b s hs
    obtain ⟨rfl, _⟩ := List.cons.inj hs
    rcases he with rfl | rfl <;> decide

/-- A fraction starts with no digit. -/
lemma FractionForm.endsDigits_append {fraction s : List UInt8} (h : FractionForm fraction)
    (hs : EndsFraction s) : EndsDigits (fraction ++ s) := by
  rcases h with _ | ⟨_, _⟩
  · exact fun b rest hb => (hs b rest hb).1
  · intro b rest hb
    obtain ⟨rfl, _⟩ := List.cons.inj hb
    decide

/-- What ends a fraction ends its digits. -/
lemma EndsFraction.endsDigits {s : List UInt8} (h : EndsFraction s) : EndsDigits s :=
  fun b rest hb => (h b rest hb).1

/-- What ends a value ends its digits. -/
lemma Ends.endsDigits {s : List UInt8} (h : Ends s) : EndsDigits s := h.endsFraction.endsDigits

/-- Digits are dropped up to their end. -/
lemma dropWhile_isDigit_append {ds s : List UInt8} (hd : AllDigits ds) (hs : EndsDigits s) :
    (ds ++ s).dropWhile isDigit = s := by
  rw [List.dropWhile_append_of_pos hd]
  rcases s with _ | ⟨b, s⟩
  · rfl
  · rw [List.dropWhile_cons_of_neg (by simp [hs b s rfl])]

/-- Digits are passed over up to their end. -/
lemma passDigits_append {b : UInt8} {ds s : List UInt8} (hb : isDigit b = true)
    (hd : AllDigits ds) (hs : EndsDigits s) : passDigits (b :: ds ++ s) = .ok s := by
  rw [List.cons_append, passDigits, if_pos hb, dropDigits, dropWhile_isDigit_append hd hs]

/-- The whole part of a numeral is passed over. -/
lemma WholeForm.passNumber_append {whole s : List UInt8} (h : WholeForm whole)
    (hs : EndsDigits s) : passNumber (whole ++ s) = passFraction s := by
  rcases h with _ | ⟨hb, hne, hd⟩
  · rcases s with _ | ⟨c, s⟩
    · rfl
    · simp [passNumber, hs c s rfl]
  · simp [passNumber, hne, hb, dropDigits, dropWhile_isDigit_append hd hs]

/-- The fraction of a numeral is passed over. -/
lemma FractionForm.passFraction_append {fraction s : List UInt8} (h : FractionForm fraction)
    (hs : EndsFraction s) : passFraction (fraction ++ s) = passExponent s := by
  rcases h with _ | ⟨hb, hd⟩
  · rcases s with _ | ⟨c, s⟩
    · rfl
    · rw [List.nil_append, passFraction, if_neg (hs c s rfl).2]
  · have hdigits := passDigits_append hb hd hs.endsDigits
    rw [List.cons_append] at hdigits
    simp [passFraction, hdigits]

/-- No sign is a digit. -/
lemma ne_sign_of_isDigit {b : UInt8} (h : isDigit b = true) :
    b ≠ Byte.plus ∧ b ≠ Byte.minus := by
  constructor <;> rintro rfl <;> exact absurd h (by decide)

/-- The exponent of a numeral is passed over. -/
lemma ExponentForm.passExponent_append {exponent rest : List UInt8} (h : ExponentForm exponent)
    (hr : Ends rest) : passExponent (exponent ++ rest) = .ok rest := by
  rcases h with _ | @⟨e, b, sign, ds, he, hsign, hb, hd⟩
  · rcases rest with _ | ⟨c, rest⟩
    · rfl
    · have hc := hr c rest rfl
      simp only [continuesNumeral, Bool.or_eq_false_iff, decide_eq_false_iff_not] at hc
      simp [passExponent, hc.1.2, hc.2]
  · have hdigits := passDigits_append hb hd hr.endsDigits
    obtain ⟨hplus, hminus⟩ := ne_sign_of_isDigit hb
    rw [List.cons_append] at hdigits
    simp only [List.mem_cons, List.not_mem_nil, or_false] at hsign
    rcases hsign with rfl | rfl | rfl <;> simp [passExponent, he, hplus, hminus, hdigits]

/-- A numeral without its sign is passed over. -/
lemma passNumber_append {whole fraction exponent rest : List UInt8} (hw : WholeForm whole)
    (hf : FractionForm fraction) (he : ExponentForm exponent) (hr : Ends rest) :
    passNumber (whole ++ (fraction ++ exponent) ++ rest) = .ok rest := by
  have hexponent := he.endsFraction_append hr
  rw [List.append_assoc, List.append_assoc, hw.passNumber_append (hf.endsDigits_append hexponent),
    hf.passFraction_append hexponent, he.passExponent_append hr]

/-! ## Strings -/

/-- What stands behind a backslash is passed over. -/
lemma EscapeForm.passEscape_append {esc : List UInt8} (h : EscapeForm esc) (rest : List UInt8) :
    passEscape (esc ++ rest) = .ok rest := by
  have hu : letterEscape? Byte.unit = none := by decide
  rcases h with hletter | hunit
  · simp [passEscape, letterEscape?_eq_some hletter]
  · simp [passEscape, hu, hunit.hexUnit_append]

/-- A byte that needs no escape is passed over. -/
lemma passString_plain {b : UInt8} (s : List UInt8) (hq : b ≠ Byte.quote)
    (hb : b ≠ Byte.backslash) (h : 32 ≤ b) : passString (b :: s) = passString s := by
  rw [passString, if_neg hq, if_neg hb, if_neg (UInt8.not_lt.2 h)]

/-- An escape is passed over. -/
lemma passString_escape {s rest : List UInt8} (h : passEscape s = .ok rest) :
    passString (Byte.backslash :: s) = passString rest := by
  have hne : Byte.backslash ≠ Byte.quote := by decide
  rw [passString, if_neg hne, if_pos rfl]
  split
  next he =>
    rw [h] at he
    cases he
  next he =>
    rw [h] at he
    cases he
    rfl

/-- What stands between quotes is passed over, with the closing quote. -/
lemma StringForm.passString_append {text : List UInt8} (h : StringForm text)
    (rest : List UInt8) : passString (text ++ Byte.quote :: rest) = .ok rest := by
  induction h with
  | nil => rw [List.nil_append, passString, if_pos rfl]
  | plain hq hb hle _ ih => rw [List.cons_append, passString_plain _ hq hb hle, ih]
  | escaped hesc _ ih =>
    rw [List.cons_append, List.append_assoc, passString_escape (hesc.passEscape_append _), ih]

/-! ## Values -/

/-- A value is passed over from its first byte on. -/
lemma pass_atValue (opened : List Enclosing) (s : List UInt8) :
    pass opened .atValue s =
      match passStart s with
      | .error e => .error e
      | .ok (.whole rest) => pass opened (.inside false) rest
      | .ok (.opened enclosing rest) => pass (enclosing :: opened) (.inside true) rest := by
  -- The definition records the equations that its termination needs; here they are dropped.
  rw [pass]
  rcases passStart s with e | ⟨rest⟩ | ⟨enclosing, rest⟩ <;> rfl

/-- What is open is passed over part by part. -/
lemma pass_inside (enclosing : Enclosing) (outer : List Enclosing) (first : Bool)
    (s : List UInt8) :
    pass (enclosing :: outer) (.inside first) s =
      match passNext enclosing first s with
      | .error e => .error e
      | .ok (.closed rest) => pass outer (.inside false) rest
      | .ok (.value rest) => pass (enclosing :: outer) .atValue rest := by
  rw [pass]
  rcases passNext enclosing first s with e | ⟨rest⟩ | ⟨rest⟩ <;> rfl

/-- Where nothing is open nothing is passed over. -/
lemma pass_nil (first : Bool) (s : List UInt8) : pass [] (.inside first) s = .ok s := by
  rw [pass]

/-- Blanks in front of a value are passed over. -/
lemma pass_atValue_append {ws : List UInt8} (hw : Blank ws) (opened : List Enclosing)
    (s : List UInt8) : pass opened .atValue (ws ++ s) = pass opened .atValue s := by
  simp only [pass_atValue, passStart, skipBlanks_append hw]

/-- Blanks in front of the rest of what is open are passed over. -/
lemma pass_inside_append {ws : List UInt8} (hw : Blank ws) (enclosing : Enclosing)
    (outer : List Enclosing) (first : Bool) (s : List UInt8) :
    pass (enclosing :: outer) (.inside first) (ws ++ s) =
      pass (enclosing :: outer) (.inside first) s := by
  simp only [pass_inside, passNext, skipBlanks_append hw]

/-- A value that starts like a numeral is one. -/
lemma passStart_of_startsNumeral {b : UInt8} (h : (b = Byte.minus || isDigit b) = true)
    (s : List UInt8) :
    passStart (b :: s) = (passNumber (if b = Byte.minus then s else b :: s)).map .whole := by
  obtain ⟨n, hn, rfl⟩ := startsNumeral_cases h
  simp only [List.mem_cons, List.not_mem_nil, or_false] at hn
  rcases hn with rfl | rfl | rfl | rfl | rfl | rfl | rfl | rfl | rfl | rfl | rfl <;> rfl

/-- A numeral is passed over. -/
lemma NumeralForm.passStart_append {text rest : List UInt8} (h : NumeralForm text)
    (hr : Ends rest) : passStart (text ++ rest) = .ok (.whole rest) := by
  obtain ⟨negative, hwhole, hfraction, hexponent⟩ := h
  have hpass := passNumber_append hwhole hfraction hexponent hr
  rcases negative with _ | _
  · obtain ⟨b, s, rfl, hb⟩ := hwhole.exists_cons
    simp only [List.cons_append] at hpass
    simp only [signBytes, Bool.false_eq_true, if_false, List.nil_append, List.cons_append]
    rw [passStart_of_startsNumeral (by simp [hb]), if_neg (ne_sign_of_isDigit hb).2, hpass]
    rfl
  · simp only [signBytes, if_true, List.cons_append, List.nil_append]
    rw [passStart_of_startsNumeral (by simp), if_pos rfl, hpass]
    rfl

/-- The text is passed over wherever a value is expected. -/
def IsPassed (text : List UInt8) : Prop :=
  ∀ opened rest, Ends rest →
    pass opened .atValue (text ++ rest) = pass opened (.inside false) rest

/-- What is open is closed by its own byte. -/
lemma passNext_close (enclosing : Enclosing) {ws : List UInt8} (hw : Blank ws) (first : Bool)
    (rest : List UInt8) :
    passNext enclosing first (ws ++ enclosing.closing :: rest) = .ok (.closed rest) := by
  have hclosing : isBlank enclosing.closing = false := by cases enclosing <;> decide
  rw [passNext, skipBlanks_append_cons hw hclosing]
  simp

/-- Behind blanks its own byte closes what is open. -/
lemma pass_close (enclosing : Enclosing) {ws : List UInt8} (hw : Blank ws)
    (outer : List Enclosing) (first : Bool) (rest : List UInt8) :
    pass (enclosing :: outer) (.inside first) (ws ++ enclosing.closing :: rest) =
      pass outer (.inside false) rest := by
  rw [pass_inside, passNext_close enclosing hw]

/-- An element of an array is passed over behind its comma. -/
lemma pass_element {text : List UInt8} (h : IsPassed text) (ht : Starts text)
    {before after tail : List UInt8} (hb : Blank before) (ha : Blank after) (htail : Ends tail)
    (outer : List Enclosing) (first : Bool) :
    pass (.array :: outer) (.inside first) (lead first ++ (before ++ (text ++ (after ++ tail)))) =
      pass (.array :: outer) (.inside false) tail := by
  have hvalue := h (.array :: outer) (after ++ tail) (htail.blank_append ha)
  rw [pass_inside_append ha] at hvalue
  rw [pass_inside, ← hvalue]
  obtain ⟨b, s, rfl, hblank, hne⟩ := ht
  have hskip := skipBlanks_append_cons hb hblank (s ++ (after ++ tail))
  have hcomma := skipBlanks_cons (b := Byte.comma) (by decide)
    (before ++ b :: (s ++ (after ++ tail)))
  have hne' : b ≠ Enclosing.array.closing := hne
  have hc : Byte.comma ≠ Enclosing.array.closing := by decide
  rcases first with _ | _
  · simp [lead, passNext, hcomma, hc, partStart, pass_atValue_append hb]
  · simp [lead, passNext, hskip, hne', partStart]

/-- A member of an object is passed over behind its comma, up to its value. -/
lemma pass_member {name : List UInt8} (h : StringForm name) {before between : List UInt8}
    (hb : Blank before) (hbetween : Blank between) (outer : List Enclosing) (first : Bool)
    (s : List UInt8) :
    pass (.object :: outer) (.inside first) (lead first ++ (before ++ Byte.quote ::
        (name ++ Byte.quote :: (between ++ Byte.colon :: s)))) =
      pass (.object :: outer) .atValue s := by
  have hskip := skipBlanks_append_cons (b := Byte.quote) hb (by decide)
    (name ++ Byte.quote :: (between ++ Byte.colon :: s))
  have hcomma := skipBlanks_cons (b := Byte.comma) (by decide)
    (before ++ Byte.quote :: (name ++ Byte.quote :: (between ++ Byte.colon :: s)))
  have hblank := skipBlanks_cons (b := Byte.quote) (by decide)
    (name ++ Byte.quote :: (between ++ Byte.colon :: s))
  have hq : Byte.quote ≠ Enclosing.object.closing := by decide
  have hc : Byte.comma ≠ Enclosing.object.closing := by decide
  rw [pass_inside]
  rcases first with _ | _
  · simp [lead, passNext, hcomma, hc, partStart, passKey, hskip, h.passString_append,
      colon_append hbetween]
  · simp [lead, passNext, hskip, hq, partStart, passKey, hblank, h.passString_append,
      colon_append hbetween]

/-- What is left of an array is passed over, up to its bracket. -/
lemma pass_elements {items : List Padded}
    (h : ∀ item ∈ items, WellFormed item.text ∧ IsPassed item.text) (outer : List Enclosing)
    (first : Bool) (rest : List UInt8) :
    pass (.array :: outer) (.inside first)
        (sequence first (items.map Padded.bytes) ++ Byte.closeBracket :: rest) =
      pass outer (.inside false) rest := by
  induction items generalizing first with
  | nil => exact pass_close .array blank_nil outer first rest
  | cons item items ih =>
    obtain ⟨hitem, hpassed⟩ := h item List.mem_cons_self
    have htail := ends_sequence (items.map Padded.bytes) (ends_closeBracket rest)
    simp only [List.map_cons, sequence, Padded.bytes, List.append_assoc] at ih ⊢
    rw [pass_element hpassed hitem.starts item.blank_before item.blank_after htail,
      ih fun item' hmem => h item' (List.mem_cons_of_mem _ hmem)]

/-- What is left of an object is passed over, up to its brace. -/
lemma pass_members {items : List PaddedMember} (h : ∀ item ∈ items, IsPassed item.value.text)
    (outer : List Enclosing) (first : Bool) (rest : List UInt8) :
    pass (.object :: outer) (.inside first)
        (sequence first (items.map PaddedMember.bytes) ++ Byte.closeBrace :: rest) =
      pass outer (.inside false) rest := by
  induction items generalizing first with
  | nil => exact pass_close .object blank_nil outer first rest
  | cons item items ih =>
    have hpassed := h item List.mem_cons_self
    have htail := ends_sequence (items.map PaddedMember.bytes) (ends_closeBrace rest)
    have hvalue := hpassed (.object :: outer) (item.value.after ++ _)
      (htail.blank_append item.value.blank_after)
    rw [pass_inside_append item.value.blank_after] at hvalue
    simp only [List.map_cons, sequence, PaddedMember.bytes, Padded.bytes, List.append_assoc,
      List.cons_append] at ih hvalue ⊢
    rw [pass_member item.name_form item.blank_before item.blank_between,
      pass_atValue_append item.value.blank_before, hvalue,
      ih fun item' hmem => h item' (List.mem_cons_of_mem _ hmem)]

/-- A well-formed text is passed over wherever a value is expected. -/
theorem WellFormed.isPassed {text : List UInt8} (h : WellFormed text) : IsPassed text := by
  induction h with
  | word hword =>
    intro opened rest _
    simp only [words, List.mem_cons, List.not_mem_nil, or_false] at hword
    rw [pass_atValue]
    rcases hword with rfl | rfl | rfl <;> rfl
  | numeral hnumeral =>
    intro opened rest hr
    rw [pass_atValue, hnumeral.passStart_append hr]
  | string hstring =>
    intro opened rest _
    have hpass := hstring.passString_append rest
    have hstart : ∀ s, passStart (Byte.quote :: s) = (passString s).map .whole := fun s => rfl
    rw [pass_atValue, List.cons_append, List.append_assoc, List.singleton_append, hstart, hpass]
    rfl
  | array hws hitems ih =>
    intro opened rest _
    have hstart : ∀ s, passStart (Byte.openBracket :: s) = .ok (.opened .array s) := fun s => rfl
    rw [pass_atValue, List.cons_append, hstart]
    simp only [List.append_assoc, List.singleton_append, separated_eq_sequence,
      pass_inside_append hws]
    exact pass_elements (fun item hmem => ⟨hitems item hmem, ih item hmem⟩) opened true rest
  | object hws _ ih =>
    intro opened rest _
    have hstart : ∀ s, passStart (Byte.openBrace :: s) = .ok (.opened .object s) := fun s => rfl
    rw [pass_atValue, List.cons_append, hstart]
    simp only [List.append_assoc, List.singleton_append, separated_eq_sequence,
      pass_inside_append hws]
    exact pass_members ih opened true rest

/-- A well-formed text is passed over behind any blanks. -/
lemma WellFormed.passValue_append {text before rest : List UInt8} (h : WellFormed text)
    (hb : Blank before) (hr : Ends rest) : passValue (before ++ (text ++ rest)) = .ok rest := by
  rw [passValue, pass_atValue_append hb, h.isPassed [] rest hr, pass_nil]

end ContractHost.Json
