import Mathlib.Tactic.Common
import ContractHost.Json.Record
import ContractHost.Proofs.Json.Recognized

/-!
# What readers take is well-formed

No reader takes more than JSON allows: what it takes off the front of a text is a well-formed text
behind blanks (`Reader.Recognizes`).  A numeral or a string that is read would also be passed over,
so their form is that of what is passed over; the parts of arrays, objects and records are put
together as in `RestForm`.  So whatever is read from a whole text, the text is JSON
(`Reader.Recognizes.isJson`).
-/

namespace ContractHost.Json

open ContractHost.Decimal

variable {α β σ : Type} {s rest : List UInt8}

/-- What the reader takes off the front is a well-formed text behind blanks. -/
def Reader.Recognizes (p : Reader α) : Prop :=
  ∀ s a rest, p.run s = .ok (a, rest) →
    ∃ before text, Blank before ∧ WellFormed text ∧ s = before ++ (text ++ rest)

/-- What is read from a whole text makes the text JSON. -/
theorem Reader.Recognizes.isJson {p : Reader α} (hp : p.Recognizes) {a : α}
    (h : readAll p s = .ok a) : IsJson s := by
  unfold readAll at h
  split at h
  · cases h
  next b rest hrun =>
    split at h
    next hempty =>
      obtain ⟨before, text, hbefore, htext, rfl⟩ := hp _ _ _ hrun
      obtain ⟨after, hafter, hrest⟩ := exists_skipBlanks rest
      rw [List.isEmpty_iff.1 hempty, List.append_nil] at hrest
      exact ⟨before, text, after, hbefore, htext, hafter, by rw [hrest]⟩
    next => cases h

/-! ## Numerals -/

/-- Digits that are read are passed over. -/
lemma passDigits_of_someDigits {ds : List Nat} (h : someDigits s = .ok (ds, rest)) :
    passDigits s = .ok rest := by
  unfold someDigits spanDigits at h
  split at h
  · cases h
  next hspan =>
    cases h
    rcases s with _ | ⟨b, s⟩
    · cases hspan
    by_cases hb : isDigit b = true
    · rw [List.dropWhile_cons_of_pos hb] at hspan
      rw [passDigits, if_pos hb, dropDigits, (Prod.mk.inj hspan).2]
    · rw [List.takeWhile_cons_of_neg hb] at hspan
      cases hspan

/-- An exponent that is read is passed over. -/
lemma passExponent_of_exponentPart {e : Option Int} (h : exponentPart s = .ok (e, rest)) :
    passExponent s = .ok rest := by
  unfold exponentPart at h
  split at h
  · cases h
    rfl
  next b s =>
    split at h
    next hb =>
      split at h
      next hdigits =>
        cases h
        have hpass := passDigits_of_someDigits hdigits
        rcases s with _ | ⟨c, s⟩
        · cases hpass
        simp only [passExponent, if_pos hb]
        by_cases hminus : c = Byte.minus
        · simpa [hminus, exponentSign] using hpass
        by_cases hplus : c = Byte.plus
        · have hne : Byte.plus ≠ Byte.minus := by decide
          simpa [hplus, hne, exponentSign] using hpass
        · simpa [hminus, hplus, exponentSign] using hpass
      next => cases h
    next hb =>
      cases h
      simp only [passExponent, if_neg hb]

/-- A fraction and an exponent that are read are passed over. -/
lemma passFraction_of_fractionPart {f : Option (List Nat)} {e : Option Int} {s' : List UInt8}
    (hf : fractionPart s = .ok (f, s')) (he : exponentPart s' = .ok (e, rest)) :
    passFraction s = .ok rest := by
  have hexponent := passExponent_of_exponentPart he
  unfold fractionPart at hf
  split at hf
  · cases hf
    exact hexponent
  next b s =>
    split at hf
    next hb =>
      split at hf
      next hdigits =>
        cases hf
        simp only [passFraction, if_pos hb, passDigits_of_someDigits hdigits, hexponent]
      next => cases hf
    next hb =>
      cases hf
      rw [passFraction, if_neg hb, hexponent]

/-- A numeral without its sign that is read is passed over. -/
lemma passNumber_of_unsignedNumeral {negative : Bool} {n : Numeral}
    (h : unsignedNumeral negative s = .ok (n, rest)) : passNumber s = .ok rest := by
  unfold unsignedNumeral at h
  split at h
  · cases h
  next whole s₁ hwhole =>
    split at h
    · cases h
    next hf =>
      split at h
      · cases h
      next he =>
        cases h
        have hfraction := passFraction_of_fractionPart hf he
        unfold wholePart at hwhole
        split at hwhole
        · cases hwhole
        next b s =>
          split at hwhole
          next hb =>
            split at hwhole
            · split at hwhole
              · cases hwhole
              next hc =>
                cases hwhole
                simp only [passNumber, if_pos hb, if_neg hc, hfraction]
            · cases hwhole
              simp only [passNumber, if_pos hb]
              exact hfraction
          next hb =>
            split at hwhole
            next hdigit =>
              cases hwhole
              have hdigit : isDigit b = true := hdigit
              rw [List.dropWhile_cons_of_pos hdigit] at hfraction
              simp only [passNumber, if_neg hb, if_pos hdigit, dropDigits, hfraction]
            next => cases hwhole

/-- A number that is read has the form of a numeral. -/
lemma number_eq_ok {n : Number} (h : number s = .ok (n, rest)) :
    ∃ text, NumeralForm text ∧ s = text ++ rest := by
  unfold number at h
  split at h
  · cases h
  next hnumeral =>
    split at h
    next =>
      cases h
      unfold numeral at hnumeral
      split at hnumeral
      · cases hnumeral
      next b s =>
        split at hnumeral
        next hb =>
          obtain ⟨text, htext, rfl⟩ :=
            passNumber_eq_ok (passNumber_of_unsignedNumeral hnumeral) true
          exact ⟨_, htext, by simp [signBytes, hb]⟩
        next =>
          obtain ⟨text, htext, hs⟩ :=
            passNumber_eq_ok (passNumber_of_unsignedNumeral hnumeral) false
          exact ⟨_, htext, hs⟩
    next => cases h

/-! ## Strings -/

/-- The second half of a pair that is read is passed over as an escape of its own. -/
lemma passString_of_secondUnit {high : Nat} {c : Char} (h : secondUnit high s = .ok (c, rest)) :
    passString s = passString rest := by
  unfold secondUnit at h
  split at h
  · cases h
  next s₁ hkeyword =>
    split at h
    · cases h
    next low s₂ hlow =>
      split at h
      next =>
        simp only [Except.ok.injEq, Prod.mk.injEq] at h
        obtain ⟨_, rfl⟩ := h
        have hu : letterEscape? Byte.unit = none := by decide
        have hpass : passEscape (Byte.unit :: s₁) = .ok s₂ := by
          simp only [passEscape, hu, if_true, hlow]
        have hs : s = Byte.backslash :: Byte.unit :: s₁ := keyword_eq_ok hkeyword
        rw [hs, passString_escape hpass]
      next => cases h

/-- An escape of one unit or of two that is read is passed over. -/
lemma passString_of_escape {c : Char} (h : escape s = .ok (c, rest)) :
    passString (Byte.backslash :: s) = passString rest := by
  unfold escape at h
  split at h
  · cases h
  next b s =>
    split at h
    next hletter =>
      cases h
      exact passString_escape (by simp only [passEscape, hletter])
    next hletter =>
      split at h
      next hb =>
        unfold unitEscape at h
        split at h
        · cases h
        next s₁ hunit =>
          have hpass : passEscape (b :: s) = .ok s₁ := by
            simp only [passEscape, hletter, if_pos hb, hunit]
          rw [passString_escape hpass]
          split at h
          · cases h
          · split at h
            next => exact passString_of_secondUnit h
            next =>
              cases h
              rfl
      next => cases h

/-- A string that is read is passed over. -/
lemma passString_of_stringBytes {acc bytes : ByteArray}
    (h : stringBytes acc s = .ok (bytes, rest)) : passString s = .ok rest := by
  fun_induction stringBytes acc s with
  | case1 => cases h
  | case2 acc s =>
    cases h
    rw [passString, if_pos rfl]
  | case3 => cases h
  | case4 acc s c s' hescape _ ih => rw [passString_of_escape hescape, ih h]
  | case5 => cases h
  | case6 acc b s hq hb hlt ih => rw [passString_plain s hq hb (UInt8.not_lt.1 hlt), ih h]

/-- A string that is read has the form of one. -/
lemma stringBody_eq_ok {text : String} (h : stringBody s = .ok (text, rest)) :
    ∃ name, StringForm name ∧ s = name ++ Byte.quote :: rest := by
  unfold stringBody at h
  split at h
  · cases h
  next hbytes =>
    split at h <;> cases h
    exact passString_eq_ok (passString_of_stringBytes hbytes)

/-- A scalar that is read has the form of one. -/
lemma scalar_eq_ok {b : UInt8} {v : Value} (h : scalar b s = .ok (v, rest)) :
    ∃ text, WellFormed text ∧ b :: s = text ++ rest := by
  unfold scalar at h
  split at h
  next hb =>
    obtain ⟨rest', hrest, heq⟩ := map_eq_ok h
    cases heq
    obtain rfl := eq_of_ofUInt8 hb
    exact ⟨Byte.n :: Byte.ull, .word (by simp [words]), congrArg _ (keyword_eq_ok hrest)⟩
  next hb =>
    obtain ⟨rest', hrest, heq⟩ := map_eq_ok h
    cases heq
    obtain rfl := eq_of_ofUInt8 hb
    exact ⟨116 :: Byte.rue, .word (by simp [words]), congrArg _ (keyword_eq_ok hrest)⟩
  next hb =>
    obtain ⟨rest', hrest, heq⟩ := map_eq_ok h
    cases heq
    obtain rfl := eq_of_ofUInt8 hb
    exact ⟨102 :: Byte.alse, .word (by simp [words]), congrArg _ (keyword_eq_ok hrest)⟩
  next hb =>
    obtain ⟨⟨t, rest'⟩, hrest, heq⟩ := map_eq_ok h
    cases heq
    obtain rfl := eq_of_ofUInt8 hb
    obtain ⟨name, hname, rfl⟩ := stringBody_eq_ok hrest
    exact ⟨_, .string hname, by simp⟩
  next =>
    split at h
    next =>
      obtain ⟨⟨n, rest'⟩, hrest, heq⟩ := map_eq_ok h
      cases heq
      obtain ⟨text, htext, hs⟩ := number_eq_ok hrest
      exact ⟨text, .numeral htext, hs⟩
    next => cases h

/-! ## Arrays -/

/-- What is found stands at the front: the byte that closes what is open, or the next part behind
its comma, of which the first bytes are given. -/
def Next.StandsAt (first : Bool) (closing : UInt8) (key : List UInt8) :
    Next → List UInt8 → Prop
  | closed rest, s => s = closing :: rest
  | .open rest, s => ∃ ws, Blank ws ∧ s = lead first ++ (ws ++ (key ++ rest))

/-- The end of an array, or its next element, was found behind blanks. -/
lemma nextElement_eq_ok {first : Bool} {next : Next} (h : nextElement first s = .ok next) :
    ∃ ws s', Blank ws ∧ s = ws ++ s' ∧ next.StandsAt first Byte.closeBracket [] s' := by
  obtain ⟨ws, hws, hs⟩ := exists_skipBlanks s
  refine ⟨ws, skipBlanks s, hws, hs, ?_⟩
  unfold nextElement at h
  split at h
  · cases h
  next b s' hskip =>
    rw [hskip]
    split at h
    next hb =>
      cases h
      exact congrArg (· :: s') hb
    · split at h
      next hfirst =>
        cases h
        exact ⟨[], blank_nil, by simp [hfirst, lead]⟩
      next hfirst =>
        split at h
        next hb =>
          obtain ⟨ws', hws', hs'⟩ := exists_skipBlanks s'
          split at h
          · cases h
          next hskip' =>
            split at h <;> cases h
            exact ⟨ws', hws', by rw [hb, hs', hskip']; simp [hfirst, lead]⟩
        next => cases h

/-- The elements that are read are what is left of an array. -/
lemma elements_eq_ok {p : Reader α} (hp : p.Recognizes) {first : Bool} {as : List α}
    (h : elements p first s = .ok (as, rest)) :
    ∃ ws c, Blank ws ∧ RestForm .array first c ∧ s = ws ++ (c ++ rest) := by
  fun_induction elements p first s generalizing as with
  | case1 => cases h
  | case2 first s rest' hnext =>
    cases h
    obtain ⟨ws, _, hws, rfl, rfl⟩ := nextElement_eq_ok hnext
    exact ⟨ws, _, hws, @RestForm.array first [] (by simp), by simp [sequence]⟩
  | case3 => cases h
  | case4 => cases h
  | case5 first s s₁ hnext a s₂ hrun as' rest' helements ih =>
    cases h
    obtain ⟨ws, _, hws, rfl, ws', hws', rfl⟩ := nextElement_eq_ok hnext
    obtain ⟨before, text, hbefore, htext, rfl⟩ := hp _ _ _ hrun
    obtain ⟨after, c, hafter, hc, rfl⟩ := ih helements
    exact ⟨ws, _, hws, hc.cons_array first htext (hws'.append hbefore) hafter, by simp⟩

/-! ## Objects -/

/-- The end of an object, or its next key, was found behind blanks. -/
lemma nextMember_eq_ok {first : Bool} {next : Next} (h : nextMember first s = .ok next) :
    ∃ ws s', Blank ws ∧ s = ws ++ s' ∧ next.StandsAt first Byte.closeBrace [Byte.quote] s' := by
  obtain ⟨ws, hws, hs⟩ := exists_skipBlanks s
  refine ⟨ws, skipBlanks s, hws, hs, ?_⟩
  unfold nextMember at h
  split at h
  · cases h
  next b s' hskip =>
    rw [hskip]
    split at h
    next hb =>
      cases h
      exact congrArg (· :: s') hb
    · split at h
      next hfirst =>
        split at h
        next hb =>
          cases h
          exact ⟨[], blank_nil, by simp [hb, hfirst, lead]⟩
        next => cases h
      next hfirst =>
        split at h
        next hb =>
          obtain ⟨ws', hws', hs'⟩ := exists_skipBlanks s'
          split at h
          · cases h
          next hskip' =>
            split at h
            next hc =>
              cases h
              exact ⟨ws', hws', by rw [hb, hs', hskip', hc]; simp [hfirst, lead]⟩
            next => cases h
        next => cases h

/-- The colon behind a key stands behind blanks. -/
lemma colon_eq_ok (h : colon s = .ok rest) : ∃ ws, Blank ws ∧ s = ws ++ Byte.colon :: rest := by
  obtain ⟨ws, hws, hs⟩ := exists_skipBlanks s
  exact ⟨ws, hws, by rw [hs, keyword_eq_ok h]; rfl⟩

/-- A member that was taken off stands in front of the rest of the object. -/
lemma exists_restForm_object {first : Bool} {s₁ s₂ s₃ s₄ : List UInt8} {key : String}
    (hnext : nextMember first s = .ok (.open s₁)) (hkey : stringBody s₁ = .ok (key, s₂))
    (hcolon : colon s₂ = .ok s₃)
    (hvalue : ∃ before text, Blank before ∧ WellFormed text ∧ s₃ = before ++ (text ++ s₄))
    (hrest : ∃ ws c, Blank ws ∧ RestForm .object false c ∧ s₄ = ws ++ (c ++ rest)) :
    ∃ ws c, Blank ws ∧ RestForm .object first c ∧ s = ws ++ (c ++ rest) := by
  obtain ⟨ws, _, hws, rfl, ws', hws', rfl⟩ := nextMember_eq_ok hnext
  obtain ⟨name, hname, rfl⟩ := stringBody_eq_ok hkey
  obtain ⟨between, hbetween, rfl⟩ := colon_eq_ok hcolon
  obtain ⟨before, text, hbefore, htext, rfl⟩ := hvalue
  obtain ⟨after, c, hafter, hc, rfl⟩ := hrest
  exact ⟨ws, _, hws, hc.cons_object first hname htext hws' hbetween hbefore hafter, by simp⟩

/-- The members that are read are what is left of an object. -/
lemma members_eq_ok {p : Reader α} (hp : p.Recognizes) {first : Bool}
    {as : List (String × α)} (h : members p first s = .ok (as, rest)) :
    ∃ ws c, Blank ws ∧ RestForm .object first c ∧ s = ws ++ (c ++ rest) := by
  fun_induction members p first s generalizing as with
  | case1 => cases h
  | case2 first s rest' hnext =>
    cases h
    obtain ⟨ws, _, hws, rfl, rfl⟩ := nextMember_eq_ok hnext
    exact ⟨ws, _, hws, @RestForm.object first [] (by simp), by simp [sequence]⟩
  | case3 => cases h
  | case4 => cases h
  | case5 => cases h
  | case6 => cases h
  | case7 first s s₁ hnext key s₂ hkey s₃ hcolon a s₄ hrun as' rest' hmembers ih =>
    cases h
    exact exists_restForm_object hnext hkey hcolon (hp _ _ _ hrun) (ih hmembers)

/-! ## Values -/

/-- What is left of what was just opened makes a value behind blanks. -/
lemma exists_wellFormed_of_opened {s' : List UInt8} :
    (skipBlanks s = Byte.openBracket :: s' →
      (∃ ws c, Blank ws ∧ RestForm .array true c ∧ s' = ws ++ (c ++ rest)) →
      ∃ before text, Blank before ∧ WellFormed text ∧ s = before ++ (text ++ rest)) ∧
    (skipBlanks s = Byte.openBrace :: s' →
      (∃ ws c, Blank ws ∧ RestForm .object true c ∧ s' = ws ++ (c ++ rest)) →
      ∃ before text, Blank before ∧ WellFormed text ∧ s = before ++ (text ++ rest)) := by
  obtain ⟨before, hbefore, hs⟩ := exists_skipBlanks s
  constructor
  · rintro hskip ⟨ws, c, hws, hc, rfl⟩
    exact ⟨before, _, hbefore, (RestForm.wellFormed hws).1 hc, by rw [hs, hskip]; simp⟩
  · rintro hskip ⟨ws, c, hws, hc, rfl⟩
    exact ⟨before, _, hbefore, (RestForm.wellFormed hws).2 hc, by rw [hs, hskip]; simp⟩

/-- A value that is read is well-formed, if its parts are. -/
lemma Value.readWith_eq_ok {inner : Option (Reader Value)} (hinner : ∀ p ∈ inner, p.Recognizes)
    {v : Value} (h : readWith inner s = .ok (v, rest)) :
    ∃ before text, Blank before ∧ WellFormed text ∧ s = before ++ (text ++ rest) := by
  unfold readWith at h
  split at h
  · cases h
  next b s' hskip =>
    split at h
    next hb =>
      rw [hb] at hskip
      split at h
      · cases h
      next p =>
        obtain ⟨⟨vs, rest'⟩, hread, heq⟩ := map_eq_ok h
        cases heq
        exact exists_wellFormed_of_opened.1 hskip (elements_eq_ok (hinner p rfl) hread)
    · split at h
      next hb =>
        rw [hb] at hskip
        split at h
        · cases h
        next p =>
          obtain ⟨⟨vs, rest'⟩, hread, heq⟩ := map_eq_ok h
          cases heq
          exact exists_wellFormed_of_opened.2 hskip (members_eq_ok (hinner p rfl) hread)
      next =>
        obtain ⟨before, hbefore, hs⟩ := exists_skipBlanks s
        obtain ⟨text, htext, heq⟩ := scalar_eq_ok h
        exact ⟨before, text, hbefore, htext, by rw [hs, hskip, heq]⟩

/-- Values that are read are well-formed, whatever depth is allowed. -/
theorem Value.recognizes_reader (n : Nat) : (Value.reader n).Recognizes := by
  induction n with
  | zero => exact fun s v rest h => @readWith_eq_ok s rest none (by simp) v h
  | succ n ih =>
    exact fun s v rest h => @readWith_eq_ok s rest (some (reader n)) (by simpa using ih) v h

/-! ## Values of a known shape -/

namespace Reader

/-- A reader by the first byte recognizes texts if what it takes from that byte on makes one. -/
lemma recognizes_byFirst {p : Reader α} {f : UInt8 → List UInt8 → Except ReadError (α × List UInt8)}
    (hf : ∀ s, p.run s = match skipBlanks s with
      | [] => .error .endOfInput
      | b :: rest => f b rest)
    (h : ∀ b s a rest, f b s = .ok (a, rest) → ∃ text, WellFormed text ∧ b :: s = text ++ rest) :
    p.Recognizes := by
  intro s a rest hrun
  obtain ⟨before, hbefore, hs⟩ := exists_skipBlanks s
  rw [hf] at hrun
  split at hrun
  · cases hrun
  next b s' hskip =>
    obtain ⟨text, htext, heq⟩ := h _ _ _ _ hrun
    exact ⟨before, text, hbefore, htext, by rw [hs, hskip, heq]⟩

/-- Strings that are read are well-formed. -/
lemma recognizes_string : Reader.string.Recognizes := by
  refine recognizes_byFirst (fun _ => rfl) fun b s a rest h => ?_
  unfold stringFrom at h
  split at h
  next hb =>
    obtain ⟨name, hname, rfl⟩ := stringBody_eq_ok h
    exact ⟨_, .string hname, by simp [hb]⟩
  next => cases h

/-- Integers that are read are well-formed. -/
lemma recognizes_integer (r : IntegerRange) : (Reader.integer r).Recognizes := by
  refine recognizes_byFirst (fun _ => rfl) fun b s a rest h => ?_
  unfold integerFrom at h
  split at h
  · split at h
    · cases h
    next hnumber =>
      split at h <;> cases h
      obtain ⟨text, htext, heq⟩ := number_eq_ok hnumber
      exact ⟨text, .numeral htext, heq⟩
  · cases h

variable {p : Reader α}

/-- A list that is read is well-formed if its elements are. -/
lemma Recognizes.list (hp : p.Recognizes) : (Reader.list p).Recognizes := by
  refine recognizes_byFirst (fun _ => rfl) fun b s a rest h => ?_
  unfold listFrom at h
  split at h
  next hb =>
    obtain ⟨ws, c, hws, hc, rfl⟩ := elements_eq_ok hp h
    exact ⟨_, (RestForm.wellFormed hws).1 hc, by simp [hb]⟩
  next => cases h

/-- What is read and mapped is well-formed if what is read is. -/
lemma Recognizes.map (hp : p.Recognizes) (f : α → β) : (p.map f).Recognizes := by
  intro s b rest h
  simp only [Reader.map] at h
  split at h
  next hrun =>
    cases h
    exact hp _ _ _ hrun
  next => cases h

/-- An optional value that is read is well-formed if the values are. -/
lemma Recognizes.optional (hp : p.Recognizes) : (Reader.optional p).Recognizes := by
  intro s a rest h
  obtain ⟨before, hbefore, hs⟩ := exists_skipBlanks s
  simp only [Reader.optional] at h
  split at h
  · cases h
  next b s' hskip =>
    split at h
    next hb =>
      split at h
      next hkeyword =>
        cases h
        refine ⟨before, Byte.n :: Byte.ull, hbefore, .word (by simp [words]), ?_⟩
        rw [hs, hskip, hb, keyword_eq_ok hkeyword]
        rfl
      next => cases h
    next =>
      obtain ⟨before', text, hbefore', htext, heq⟩ := (hp.map some) _ _ _ h
      exact ⟨_, text, hbefore.append hbefore', htext, by rw [hs, hskip, heq, List.append_assoc]⟩

end Reader

/-! ## Records -/

/-- The members that are read of a record are what is left of an object. -/
lemma Field.readMembers_eq_ok {fields : List (Field σ)}
    (hf : ∀ field ∈ fields, field.reader.Recognizes) {state state' : σ} {first : Bool}
    (h : readMembers fields state first s = .ok (state', rest)) :
    ∃ ws c, Blank ws ∧ RestForm .object first c ∧ s = ws ++ (c ++ rest) := by
  fun_induction readMembers fields state first s with
  | case1 => cases h
  | case2 state first s rest' hnext =>
    cases h
    obtain ⟨ws, _, hws, rfl, rfl⟩ := nextMember_eq_ok hnext
    exact ⟨ws, _, hws, @RestForm.object first [] (by simp), by simp [sequence]⟩
  | case3 => cases h
  | case4 => cases h
  | case5 => cases h
  | case6 state first s s₁ hnext key s₂ hkey hfind s₃ hcolon s₄ hpass ih =>
    exact exists_restForm_object hnext hkey hcolon (wellFormed_of_passValue hpass) (ih h)
  | case7 => cases h
  | case8 => cases h
  | case9 => cases h
  | case10 state first s s₁ hnext key s₂ hkey field hfind hgiven s₃ hcolon update s₄ hrun ih =>
    exact exists_restForm_object hnext hkey hcolon
      (hf field (List.mem_of_find?_eq_some hfind) _ _ _ hrun) (ih h)

/-- The elements that are read of a record, with what ends them, are what is left of an array. -/
lemma Field.readElements_eq_ok {fields : List (Field σ)}
    (hf : ∀ field ∈ fields, field.reader.Recognizes) {state state' : σ} {first : Bool}
    {next : Next} (h : readElements fields state first s = .ok (state', next))
    (hend : endArray next = .ok rest) :
    ∃ ws c, Blank ws ∧ RestForm .array first c ∧ s = ws ++ (c ++ rest) := by
  induction fields generalizing s state first with
  | nil =>
    cases h
    obtain ⟨ws, hws, hs⟩ := exists_skipBlanks s
    refine ⟨ws, _, hws, @RestForm.array first [] (by simp), ?_⟩
    rw [hs, keyword_eq_ok hend]
    simp [sequence]
  | cons field fields ih =>
    unfold readElements at h
    split at h
    · cases h
    next hnext =>
      cases h
      cases hend
      obtain ⟨ws, _, hws, rfl, rfl⟩ := nextElement_eq_ok hnext
      exact ⟨ws, _, hws, @RestForm.array first [] (by simp), by simp [sequence]⟩
    next hnext =>
      split at h
      · cases h
      next hrun =>
        obtain ⟨ws, _, hws, rfl, ws', hws', rfl⟩ := nextElement_eq_ok hnext
        obtain ⟨before, text, hbefore, htext, rfl⟩ := hf field List.mem_cons_self _ _ _ hrun
        obtain ⟨after, c, hafter, hc, rfl⟩ :=
          ih (fun field' hmem => hf field' (List.mem_cons_of_mem _ hmem)) h
        exact ⟨ws, _, hws, hc.cons_array first htext (hws'.append hbefore) hafter, by simp⟩

/-- A record that is read is well-formed if its fields are. -/
theorem RecordShape.recognizes_reader {shape : RecordShape σ α}
    (hf : ∀ field ∈ shape.fields, field.reader.Recognizes) : shape.reader.Recognizes := by
  refine Reader.recognizes_byFirst (fun _ => rfl) fun b s a rest h => ?_
  unfold readFrom at h
  split at h
  next hb =>
    unfold readObject at h
    split at h
    · cases h
    next hread =>
      split at h <;> cases h
      obtain ⟨ws, c, hws, hc, rfl⟩ := Field.readMembers_eq_ok hf hread
      exact ⟨_, (RestForm.wellFormed hws).2 hc, by simp [hb]⟩
  · split at h
    next hb =>
      unfold readArray at h
      split at h
      · cases h
      next hread =>
        split at h
        · cases h
        · split at h
          · cases h
          next hend =>
            cases h
            obtain ⟨ws, c, hws, hc, rfl⟩ := Field.readElements_eq_ok hf hread hend
            exact ⟨_, (RestForm.wellFormed hws).1 hc, by simp [hb]⟩
    next => cases h

end ContractHost.Json
