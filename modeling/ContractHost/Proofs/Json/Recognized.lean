import Mathlib.Tactic.Common
import ContractHost.Proofs.Json.Passing

/-!
# What was passed over is well-formed

A text that was passed over is a well-formed one behind blanks (`wellFormed_of_passValue`).

What is open around the place reached is kept as a list, so this is proved for all of it at once:
`Closes` says which bytes close everything that is open, and from every place what was passed over
leads to such bytes (`leadsTo_of_pass`).
-/

namespace ContractHost.Json

open ContractHost.Decimal

/-! ## Blanks and words -/

/-- Blanks that are skipped stand in front of what is left. -/
lemma exists_skipBlanks (s : List UInt8) : ∃ ws, Blank ws ∧ s = ws ++ skipBlanks s :=
  ⟨s.takeWhile isBlank, List.all_eq_true.1 List.all_takeWhile,
    List.takeWhile_append_dropWhile.symm⟩

/-- The bytes asked for stand in front of what is left. -/
lemma keyword_eq_ok {ks s rest : List UInt8} (h : keyword ks s = .ok rest) : s = ks ++ rest := by
  fun_induction keyword ks s with
  | case1 => simpa using h
  | case2 => cases h
  | case3 ks b s ih => rw [ih h, List.cons_append]
  | case4 => cases h

/-! ## Numerals -/

/-- Digits that are dropped stand in front of what is left. -/
lemma exists_dropDigits (s : List UInt8) : ∃ ds, AllDigits ds ∧ s = ds ++ dropDigits s :=
  ⟨s.takeWhile isDigit, List.all_eq_true.1 List.all_takeWhile,
    List.takeWhile_append_dropWhile.symm⟩

/-- At least one digit was passed over. -/
lemma passDigits_eq_ok {s rest : List UInt8} (h : passDigits s = .ok rest) :
    ∃ b ds, isDigit b = true ∧ AllDigits ds ∧ s = b :: ds ++ rest := by
  unfold passDigits at h
  split at h
  · cases h
  next b s =>
    split at h <;> cases h
    obtain ⟨ds, hds, hs⟩ := exists_dropDigits s
    exact ⟨b, ds, ‹_›, hds, by rw [List.cons_append, ← hs]⟩

/-- An exponent, or nothing, was passed over. -/
lemma passExponent_eq_ok {s rest : List UInt8} (h : passExponent s = .ok rest) :
    ∃ exponent, ExponentForm exponent ∧ s = exponent ++ rest := by
  unfold passExponent at h
  split at h
  · cases h
    exact ⟨[], .none, rfl⟩
  next e s =>
    split at h
    next he =>
      have he : e = Byte.lowerE ∨ e = Byte.upperE := by simpa using he
      split at h
      · cases h
      next c s =>
        split at h
        next hc =>
          obtain ⟨b, ds, hb, hds, rfl⟩ := passDigits_eq_ok h
          refine ⟨e :: ([c] ++ b :: ds), .digits he ?_ hb hds, by simp⟩
          simpa using hc
        next =>
          obtain ⟨b, ds, hb, hds, hs⟩ := passDigits_eq_ok h
          exact ⟨e :: ([] ++ b :: ds), .digits he (by simp) hb hds, by simp [hs]⟩
    next =>
      cases h
      exact ⟨[], .none, rfl⟩

/-- A fraction and an exponent, or nothing, were passed over. -/
lemma passFraction_eq_ok {s rest : List UInt8} (h : passFraction s = .ok rest) :
    ∃ fraction exponent, FractionForm fraction ∧ ExponentForm exponent ∧
      s = fraction ++ (exponent ++ rest) := by
  unfold passFraction at h
  split at h
  · cases h
    exact ⟨[], [], .none, .none, rfl⟩
  next b s =>
    split at h
    next hb =>
      split at h
      next s' hdigits =>
        obtain ⟨c, ds, hc, hds, rfl⟩ := passDigits_eq_ok hdigits
        obtain ⟨exponent, hexponent, rfl⟩ := passExponent_eq_ok h
        exact ⟨Byte.point :: c :: ds, exponent, .digits hc hds, hexponent, by simp [hb]⟩
      next => cases h
    next =>
      obtain ⟨exponent, hexponent, hs⟩ := passExponent_eq_ok h
      exact ⟨[], exponent, .none, hexponent, hs⟩

/-- A numeral without its sign was passed over. -/
lemma passNumber_eq_ok {s rest : List UInt8} (h : passNumber s = .ok rest) (negative : Bool) :
    ∃ text, NumeralForm (signBytes negative ++ text) ∧ s = text ++ rest := by
  unfold passNumber at h
  split at h
  · cases h
  next b s =>
    split at h
    next hb =>
      split at h
      · cases h
        exact ⟨_, .mk negative .zero .none .none, by simp [hb]⟩
      next c s =>
        split at h
        · cases h
        · obtain ⟨fraction, exponent, hfraction, hexponent, hs⟩ := passFraction_eq_ok h
          exact ⟨_, .mk negative .zero hfraction hexponent, by simp [hb, hs]⟩
    next hne =>
      split at h
      next hb =>
        obtain ⟨ds, hds, hs⟩ := exists_dropDigits s
        obtain ⟨fraction, exponent, hfraction, hexponent, hrest⟩ := passFraction_eq_ok h
        refine ⟨_, .mk negative (.digits hb hne hds) hfraction hexponent, ?_⟩
        rw [hs, hrest]
        simp
      next => cases h

/-! ## Strings -/

/-- A hexadecimal digit was read as its value. -/
lemma hexDigit_of_hexDigit? {b : UInt8} {d : Nat} (h : hexDigit? b = some d) : HexDigit b d := by
  have hb : b = UInt8.ofNat b.toNat := by simp
  simp only [hexDigit?, Bool.and_eq_true, decide_eq_true_eq] at h
  generalize b.toNat = m at h hb
  subst hb
  split at h
  next hrange =>
    obtain rfl : m - 48 = d := by simpa using h
    have hform : HexDigit (UInt8.ofNat (48 + (m - 48))) (m - 48) := .decimal (by omega)
    rwa [show 48 + (m - 48) = m by omega] at hform
  · split at h
    next hrange =>
      obtain rfl : m - 55 = d := by simpa using h
      have hform : HexDigit (UInt8.ofNat (65 + (m - 65))) (10 + (m - 65)) := .upper (by omega)
      rwa [show 65 + (m - 65) = m by omega, show 10 + (m - 65) = m - 55 by omega] at hform
    · split at h
      next hrange =>
        obtain rfl : m - 87 = d := by simpa using h
        have hform : HexDigit (UInt8.ofNat (97 + (m - 97))) (10 + (m - 97)) := .lower (by omega)
        rwa [show 97 + (m - 97) = m by omega, show 10 + (m - 97) = m - 87 by omega] at hform
      next => cases h

/-- Four hexadecimal digits were read as the unit that they name. -/
lemma hexUnit_eq_ok {s rest : List UInt8} {n : Nat} (h : hexUnit s = .ok (n, rest)) :
    ∃ ds, HexUnit ds n ∧ s = ds ++ rest := by
  unfold hexUnit at h
  split at h
  next a b c d s =>
    split at h
    next ha hb hc hd =>
      cases h
      exact ⟨_, .mk (hexDigit_of_hexDigit? ha) (hexDigit_of_hexDigit? hb)
        (hexDigit_of_hexDigit? hc) (hexDigit_of_hexDigit? hd), rfl⟩
    next => cases h
  next => cases h

/-- A byte is found by its character. -/
lemma eq_of_ofUInt8 {b : UInt8} {c : Char} (h : Char.ofUInt8 b = c) :
    b = UInt8.ofNat c.toNat := by
  subst h
  have hval : (Char.ofUInt8 b).toNat = b.toNat := UInt8.toNat_toUInt32 b
  rw [hval, UInt8.ofNat_toNat]

/-- A letter that is read as a character is one of the short escapes. -/
lemma mem_shortEscapes_of_letterEscape? {b : UInt8} {c : Char} (h : letterEscape? b = some c) :
    (b, c) ∈ shortEscapes := by
  unfold letterEscape? at h
  split at h
  case h_9 => cases h
  all_goals
    next hb =>
      obtain rfl := Option.some.inj h
      obtain rfl := eq_of_ofUInt8 hb
      decide

/-- What may stand behind a backslash was passed over. -/
lemma passEscape_eq_ok {s rest : List UInt8} (h : passEscape s = .ok rest) :
    ∃ esc, EscapeForm esc ∧ s = esc ++ rest := by
  unfold passEscape at h
  split at h
  · cases h
  next b s =>
    split at h
    next c hletter =>
      cases h
      exact ⟨[b], .letter (mem_shortEscapes_of_letterEscape? hletter), rfl⟩
    next =>
      split at h
      next hb =>
        split at h
        next hunit =>
          cases h
          obtain ⟨ds, hds, rfl⟩ := hexUnit_eq_ok hunit
          exact ⟨Byte.unit :: ds, .unit hds, by simp [hb]⟩
        next => cases h
      next => cases h

/-- What may stand between quotes was passed over, with the closing quote. -/
lemma passString_eq_ok {s rest : List UInt8} (h : passString s = .ok rest) :
    ∃ text, StringForm text ∧ s = text ++ Byte.quote :: rest := by
  fun_induction passString s with
  | case1 => cases h
  | case2 s =>
    cases h
    exact ⟨[], .nil, rfl⟩
  | case3 => cases h
  | case4 s s' hescape _ ih =>
    obtain ⟨esc, hesc, rfl⟩ := passEscape_eq_ok hescape
    obtain ⟨text, htext, rfl⟩ := ih h
    exact ⟨_, .escaped hesc htext, by simp⟩
  | case5 => cases h
  | case6 b s hq hb hlt ih =>
    obtain ⟨text, htext, rfl⟩ := ih h
    exact ⟨b :: text, .plain hq hb (UInt8.not_lt.1 hlt) htext, rfl⟩

/-! ## Values -/

/-- What is passed over of a value stands at the front: all of it, or what opens it. -/
def Passed.StandsAt : Passed → List UInt8 → Prop
  | whole rest, s => ∃ text, WellFormed text ∧ s = text ++ rest
  | opened .array rest, s => s = Byte.openBracket :: rest
  | opened .object rest, s => s = Byte.openBrace :: rest

/-- A value, or what opens it, was passed over behind blanks. -/
lemma passStart_eq_ok {s : List UInt8} {r : Passed} (h : passStart s = .ok r) :
    ∃ ws s', Blank ws ∧ s = ws ++ s' ∧ r.StandsAt s' := by
  obtain ⟨ws, hws, hs⟩ := exists_skipBlanks s
  refine ⟨ws, skipBlanks s, hws, hs, ?_⟩
  unfold passStart at h
  split at h
  · cases h
  next b rest hskip =>
    rw [hskip]
    split at h
    next hb =>
      obtain ⟨rest', hrest, rfl⟩ := map_eq_ok h
      obtain rfl := eq_of_ofUInt8 hb
      exact ⟨Byte.n :: Byte.ull, .word (by simp [words]), congrArg _ (keyword_eq_ok hrest)⟩
    next hb =>
      obtain ⟨rest', hrest, rfl⟩ := map_eq_ok h
      obtain rfl := eq_of_ofUInt8 hb
      exact ⟨116 :: Byte.rue, .word (by simp [words]), congrArg _ (keyword_eq_ok hrest)⟩
    next hb =>
      obtain ⟨rest', hrest, rfl⟩ := map_eq_ok h
      obtain rfl := eq_of_ofUInt8 hb
      exact ⟨102 :: Byte.alse, .word (by simp [words]), congrArg _ (keyword_eq_ok hrest)⟩
    next hb =>
      obtain ⟨rest', hrest, rfl⟩ := map_eq_ok h
      obtain ⟨text, htext, rfl⟩ := passString_eq_ok hrest
      obtain rfl := eq_of_ofUInt8 hb
      exact ⟨_, .string htext, by simp⟩
    next hb =>
      obtain ⟨rest', hrest, rfl⟩ := map_eq_ok h
      obtain ⟨text, htext, rfl⟩ := passNumber_eq_ok hrest true
      obtain rfl := eq_of_ofUInt8 hb
      exact ⟨_, .numeral htext, by simp [signBytes]⟩
    next hb =>
      cases h
      obtain rfl := eq_of_ofUInt8 hb
      rfl
    next hb =>
      cases h
      obtain rfl := eq_of_ofUInt8 hb
      rfl
    next =>
      split at h
      next =>
        obtain ⟨rest', hrest, rfl⟩ := map_eq_ok h
        obtain ⟨text, htext, htail⟩ := passNumber_eq_ok hrest false
        exact ⟨text, .numeral htext, htail⟩
      next => cases h

/-- What is left of an array or an object, from where the next part or the end is expected. -/
inductive RestForm : Enclosing → Bool → List UInt8 → Prop
  | array (first : Bool) {items : List Padded} : (∀ item ∈ items, WellFormed item.text) →
      RestForm .array first (sequence first (items.map Padded.bytes) ++ [Byte.closeBracket])
  | object (first : Bool) {items : List PaddedMember} :
      (∀ item ∈ items, WellFormed item.value.text) →
      RestForm .object first (sequence first (items.map PaddedMember.bytes) ++ [Byte.closeBrace])

/-- The bytes close everything that is open and leave the rest given. -/
def Closes : List Enclosing → Bool → List UInt8 → List UInt8 → Prop
  | [], _, s, rest => s = rest
  | enclosing :: outer, first, s, rest =>
    ∃ ws text s', Blank ws ∧ RestForm enclosing first text ∧ s = ws ++ (text ++ s') ∧
      Closes outer false s' rest

/-- What was passed over from a place on: a value, if one was expected, and what closes everything
that is open. -/
def Place.LeadsTo : Place → List Enclosing → List UInt8 → List UInt8 → Prop
  | atValue, opened, s, rest => ∃ before text s', Blank before ∧ WellFormed text ∧
      s = before ++ (text ++ s') ∧ Closes opened false s' rest
  | inside first, opened, s, rest => Closes opened first s rest

/-- A key and its colon were passed over. -/
lemma passKey_eq_ok {s rest : List UInt8} (h : passKey s = .ok rest) :
    ∃ before name between, Blank before ∧ StringForm name ∧ Blank between ∧
      s = before ++ Byte.quote :: (name ++ Byte.quote :: (between ++ Byte.colon :: rest)) := by
  obtain ⟨before, hbefore, hs⟩ := exists_skipBlanks s
  unfold passKey at h
  split at h
  · cases h
  next b s' hskip =>
    split at h
    next hb =>
      split at h
      next s'' hstring =>
        obtain ⟨name, hname, rfl⟩ := passString_eq_ok hstring
        obtain ⟨between, hbetween, hs''⟩ := exists_skipBlanks s''
        have hcolon := keyword_eq_ok h
        refine ⟨before, name, between, hbefore, hname, hbetween, ?_⟩
        rw [hs, hskip, hb, hs'', hcolon]
        rfl
      next => cases h
    next => cases h

/-- A part is behind its comma, if it is not the first. -/
lemma partStart_eq_some {first : Bool} {b : UInt8} {rest s : List UInt8}
    (h : partStart first b rest = some s) : b :: rest = lead first ++ s := by
  unfold partStart at h
  split at h
  next hfirst =>
    cases h
    simp [lead, hfirst]
  next hfirst =>
    split at h <;> cases h
    simp_all [lead]

/-- What is passed over of what is open stands at the front: its end, or what stands in front of
the next value. -/
def Step.StandsAt (first : Bool) : Step → Enclosing → List UInt8 → Prop
  | closed rest, enclosing, s => s = enclosing.closing :: rest
  | value rest, .array, s => s = lead first ++ rest
  | value rest, .object, s => ∃ before name between, Blank before ∧ StringForm name ∧
      Blank between ∧ s = lead first ++ (before ++ Byte.quote ::
        (name ++ Byte.quote :: (between ++ Byte.colon :: rest)))

/-- The end of what is open, or what stands in front of the next value, was passed over behind
blanks. -/
lemma passNext_eq_ok {enclosing : Enclosing} {first : Bool} {s : List UInt8} {r : Step}
    (h : passNext enclosing first s = .ok r) :
    ∃ ws s', Blank ws ∧ s = ws ++ s' ∧ r.StandsAt first enclosing s' := by
  obtain ⟨ws, hws, hs⟩ := exists_skipBlanks s
  refine ⟨ws, skipBlanks s, hws, hs, ?_⟩
  unfold passNext at h
  split at h
  · cases h
  next b rest hskip =>
    rw [hskip]
    split at h
    next hb =>
      cases h
      exact congrArg (· :: rest) hb
    next =>
      split at h
      · cases h
      next s₁ hpart =>
        rw [partStart_eq_some hpart]
        split at h
        · cases h
          rfl
        · split at h
          next s₂ hkey =>
            cases h
            obtain ⟨before, name, between, hb, hname, hbetween, rfl⟩ := passKey_eq_ok hkey
            exact ⟨before, name, between, hb, hname, hbetween, rfl⟩
          next => cases h

/-- A value in front of the rest of an array belongs to it. -/
lemma RestForm.cons_array {text c ws before : List UInt8} (first : Bool)
    (h : RestForm .array false c) (ht : WellFormed text) (hb : Blank before) (hw : Blank ws) :
    RestForm .array first (lead first ++ (before ++ (text ++ (ws ++ c)))) := by
  obtain ⟨_, hitems⟩ | _ := h
  have hform := @RestForm.array first (⟨before, text, ws, hb, hw⟩ :: _)
    (by simpa using ⟨ht, hitems⟩)
  simpa [sequence, Padded.bytes] using hform

/-- A member in front of the rest of an object belongs to it. -/
lemma RestForm.cons_object {name text c ws before between before' : List UInt8} (first : Bool)
    (h : RestForm .object false c) (hn : StringForm name) (ht : WellFormed text)
    (hb : Blank before) (hbetween : Blank between) (hb' : Blank before') (hw : Blank ws) :
    RestForm .object first (lead first ++ (before ++ Byte.quote :: (name ++ Byte.quote ::
      (between ++ Byte.colon :: (before' ++ (text ++ (ws ++ c))))))) := by
  obtain _ | ⟨_, hitems⟩ := h
  have hform := @RestForm.object first
    (⟨before, name, between, ⟨before', text, ws, hb', hw⟩, hb, hn, hbetween⟩ :: _)
    (by simpa using ⟨ht, hitems⟩)
  simpa [sequence, Padded.bytes, PaddedMember.bytes] using hform

/-- The rest of what was just opened, with its opening, is a value. -/
lemma RestForm.wellFormed {ws c : List UInt8} (hw : Blank ws) :
    (RestForm .array true c → WellFormed (Byte.openBracket :: (ws ++ c))) ∧
      (RestForm .object true c → WellFormed (Byte.openBrace :: (ws ++ c))) := by
  constructor
  · rintro (⟨_, hitems⟩ | _)
    rw [← separated_eq_sequence]
    exact .array hw hitems
  · rintro (_ | ⟨_, hitems⟩)
    rw [← separated_eq_sequence]
    exact .object hw hitems

/-- From every place what was passed over has the form of what is expected there. -/
theorem leadsTo_of_pass {opened : List Enclosing} {place : Place} {s r : List UInt8}
    (h : pass opened place s = .ok r) : place.LeadsTo opened s r := by
  fun_induction pass opened place s with
  | case1 => cases h
  | case2 opened s rest hstart ih =>
    obtain ⟨before, _, hbefore, rfl, text, htext, rfl⟩ := passStart_eq_ok hstart
    exact ⟨before, text, rest, hbefore, htext, rfl, ih h⟩
  | case3 opened s enclosing rest hstart ih =>
    obtain ⟨ws, c, s', hws, hc, rfl, hcloses⟩ := ih h
    obtain ⟨before, _, hbefore, rfl, hs⟩ := passStart_eq_ok hstart
    rcases enclosing with _ | _
    · obtain rfl := hs
      exact ⟨before, _, s', hbefore, (RestForm.wellFormed hws).1 hc, by simp, hcloses⟩
    · obtain rfl := hs
      exact ⟨before, _, s', hbefore, (RestForm.wellFormed hws).2 hc, by simp, hcloses⟩
  | case4 => exact Except.ok.inj h
  | case5 => cases h
  | case6 s first enclosing outer rest hnext ih =>
    obtain ⟨ws, _, hws, rfl, rfl⟩ := passNext_eq_ok hnext
    refine ⟨ws, [enclosing.closing], rest, hws, ?_, by simp, ih h⟩
    rcases enclosing with _ | _
    · exact @RestForm.array first [] (by simp)
    · exact @RestForm.object first [] (by simp)
  | case7 s first enclosing outer rest hnext ih =>
    obtain ⟨before, text, _, hbefore, htext, rfl, ws, c, s', hws, hc, rfl, hcloses⟩ := ih h
    obtain ⟨ws', _, hws', rfl, hs⟩ := passNext_eq_ok hnext
    rcases enclosing with _ | _
    · obtain rfl := hs
      exact ⟨ws', _, s', hws', hc.cons_array first htext hbefore hws, by simp, hcloses⟩
    · obtain ⟨before', name, between, hb, hname, hbetween, rfl⟩ := hs
      exact ⟨ws', _, s', hws',
        hc.cons_object first hname htext hb hbetween hbefore hws, by simp, hcloses⟩

/-- What was passed over is a well-formed text behind blanks. -/
theorem wellFormed_of_passValue {s rest : List UInt8} (h : passValue s = .ok rest) :
    ∃ before text, Blank before ∧ WellFormed text ∧ s = before ++ (text ++ rest) := by
  obtain ⟨before, text, s', hbefore, htext, rfl, rfl⟩ := leadsTo_of_pass h
  exact ⟨before, text, hbefore, htext, rfl⟩

end ContractHost.Json
