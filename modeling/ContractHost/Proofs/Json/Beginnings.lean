import Mathlib.Data.List.TakeWhile
import Mathlib.Tactic.Common
import ContractHost.Json.Record
import ContractHost.Proofs.Json.Literal

/-!
# Tokens and numerals that are cut off

What stands between the parts of a text, and its strings, are decided by what was read of them:
unless they ask for more, nothing that follows makes a difference (`IsDecided`).  So a token that
is cut off either asks for more or was not cut at all (`IsDecided.cut`).

Only a numeral may end anywhere: a beginning of an integer literal is empty, a minus sign, or a
literal for an integer nearer to zero (`Literal.beginning_cases`), and is read as one
(`number_cut`).
-/

namespace ContractHost.Json

open ContractHost.Decimal

/-- What was read decides: unless more is asked for, what stands behind makes no difference, and is
left as well.  `more` puts it behind what is left otherwise. -/
def IsDecided {β : Type} (more : List UInt8 → β → β) (f : List UInt8 → Except ReadError β) : Prop :=
  ∀ s t, f s = .error .endOfInput ∨ f (s ++ t) = (f s).map (more t)

/-- More behind what is left. -/
def leave (t rest : List UInt8) : List UInt8 := rest ++ t

/-- More behind what is left of what was read. -/
def leaveBehind {α : Type} (t : List UInt8) (r : α × List UInt8) : α × List UInt8 := (r.1, r.2 ++ t)

/-- More behind the next part of what is open. -/
def Next.leave (t : List UInt8) : Next → Next
  | closed rest => closed (rest ++ t)
  | .open rest => .open (rest ++ t)

/-- Where the end of a text is cut off, either more is asked for or the same is read. -/
lemma IsDecided.cut {β : Type} {more : List UInt8 → β → β} {f : List UInt8 → Except ReadError β}
    (hf : IsDecided more f) {s t : List UInt8} {b : β} (h : f (s ++ t) = .ok b) :
    f s = .error .endOfInput ∨ ∃ b', f s = .ok b' ∧ b = more t b' := by
  rcases hf s t with hmore | hsame
  · exact .inl hmore
  · rw [h] at hsame
    obtain ⟨b', hb', rfl⟩ := map_eq_ok hsame.symm
    exact .inr ⟨b', hb', rfl⟩

/-- What refuses everything is decided. -/
lemma isDecided_error {β : Type} (more : List UInt8 → β → β) (e : ReadError) :
    IsDecided more fun _ => .error e := fun _ _ => .inr rfl

/-- What reads nothing more is decided. -/
lemma isDecided_ok {α : Type} (a : α) : IsDecided leaveBehind fun rest => .ok (a, rest) :=
  fun _ _ => .inr rfl

/-- What is read in two steps is decided by what was read if each of them is. -/
lemma IsDecided.andThen {α β : Type} {more : List UInt8 → β → β}
    {f : List UInt8 → Except ReadError (α × List UInt8)} {k : α → List UInt8 → Except ReadError β}
    {g : List UInt8 → Except ReadError β} (hf : IsDecided leaveBehind f)
    (herror : ∀ s e, f s = .error e → g s = .error e)
    (hok : ∀ s a rest, f s = .ok (a, rest) → g s = k a rest)
    (hk : ∀ a, IsDecided more (k a)) : IsDecided more g := by
  intro s t
  rcases hs : f s with e | ⟨a, rest⟩
  · rcases hf s t with hmore | hsame
    · exact .inl (herror s _ hmore)
    · rw [hs] at hsame
      exact .inr (by rw [herror _ e hsame, herror _ e hs]; rfl)
  · rcases hf s t with hmore | hsame
    · rw [hs] at hmore
      cases hmore
    · rw [hs] at hsame
      rw [hok _ a (rest ++ t) hsame, hok _ a rest hs]
      exact hk a rest t

variable {s t rest : List UInt8}

/-- What is made of a text without its end `t`, where `a` is taken off the whole text and `rest` is
left: more is asked for, or `a` is taken as well and that much less is left. -/
def Agrees {α : Type} (a : α) (rest t : List UInt8) (r : Except ReadError (α × List UInt8)) :
    Prop :=
  r = .error .endOfInput ∨ ∃ rest', r = .ok (a, rest') ∧ rest = rest' ++ t

/-- What is decided by what was read is the same where the end of a text is cut off. -/
lemma IsDecided.agrees {α : Type} {f : List UInt8 → Except ReadError (α × List UInt8)} {a : α}
    (hf : IsDecided leaveBehind f) (h : f (s ++ t) = .ok (a, rest)) : Agrees a rest t (f s) := by
  rcases hf.cut h with hmore | ⟨⟨a', rest'⟩, hs, heq⟩
  · exact .inl hmore
  · cases heq
    exact .inr ⟨rest', hs, rfl⟩

/-! ## Between the parts -/

/-- Nothing is left behind blanks just if there is nothing else. -/
lemma isEmpty_skipBlanks_iff : (skipBlanks s).isEmpty = true ↔ Blank s := by
  rw [List.isEmpty_iff, skipBlanks, List.dropWhile_eq_nil_iff]
  rfl

/-- Unless there are only blanks, what stands behind is not looked at for blanks. -/
lemma skipBlanks_cut (s t : List UInt8) :
    skipBlanks s = [] ∨ skipBlanks (s ++ t) = skipBlanks s ++ t := by
  simp only [skipBlanks, List.dropWhile_append]
  split
  next h => exact .inl (List.isEmpty_iff.1 h)
  next => exact .inr rfl

/-- Words are decided by what was read. -/
lemma isDecided_keyword (ks : List UInt8) : IsDecided leave (keyword ks) := by
  intro s t
  fun_induction keyword ks s with
  | case1 s => exact .inr rfl
  | case2 => exact .inl rfl
  | case3 k ks s ih => simpa [keyword] using ih
  | case4 k ks b s hne => exact .inr (by simp [keyword, hne, Except.map])

/-- The colon is decided by what was read. -/
lemma isDecided_colon : IsDecided leave colon := by
  intro s t
  rcases skipBlanks_cut s t with hblank | hskip
  · exact .inl (by rw [colon, hblank]; rfl)
  · rw [colon, colon, hskip]
    exact isDecided_keyword _ _ t

/-- Behind blanks, what is decided from the first byte on is decided by what was read. -/
lemma isDecided_byFirst {β : Type} {more : List UInt8 → β → β}
    {f : UInt8 → List UInt8 → Except ReadError β} {g : List UInt8 → Except ReadError β}
    (hg : ∀ s, g s = match skipBlanks s with
      | [] => .error .endOfInput
      | b :: rest => f b rest)
    (hf : ∀ b, IsDecided more (f b)) : IsDecided more g := by
  intro s t
  rcases skipBlanks_cut s t with hblank | hskip
  · exact .inl (by rw [hg, hblank])
  rcases hs : skipBlanks s with _ | ⟨b, s'⟩
  · exact .inl (by rw [hg, hs])
  · rw [hg, hg, hskip, hs]
    exact hf b s' t

/-- The next element of an array is decided by what was read. -/
lemma isDecided_nextElement (first : Bool) : IsDecided Next.leave (nextElement first) := by
  refine isDecided_byFirst (fun _ => rfl) fun b => ?_
  by_cases hclose : b = Byte.closeBracket
  · exact fun s t => .inr (by simp only [if_pos hclose]; rfl)
  by_cases hfirst : first = true
  · exact fun s t => .inr (by simp only [if_neg hclose, if_pos hfirst]; rfl)
  by_cases hcomma : b = Byte.comma
  · simp only [if_neg hclose, if_neg hfirst, if_pos hcomma]
    refine isDecided_byFirst (fun _ => rfl) fun c s t => .inr ?_
    split <;> rfl
  · exact fun s t => .inr (by simp only [if_neg hclose, if_neg hfirst, if_neg hcomma]; rfl)

/-- The next key of an object is decided by what was read. -/
lemma isDecided_nextMember (first : Bool) : IsDecided Next.leave (nextMember first) := by
  refine isDecided_byFirst (fun _ => rfl) fun b => ?_
  by_cases hclose : b = Byte.closeBrace
  · exact fun s t => .inr (by simp only [if_pos hclose]; rfl)
  by_cases hfirst : first = true
  · simp only [if_neg hclose, if_pos hfirst]
    exact fun s t => .inr (by split <;> rfl)
  by_cases hcomma : b = Byte.comma
  · simp only [if_neg hclose, if_neg hfirst, if_pos hcomma]
    refine isDecided_byFirst (fun _ => rfl) fun c s t => .inr ?_
    split <;> rfl
  · exact fun s t => .inr (by simp only [if_neg hclose, if_neg hfirst, if_neg hcomma]; rfl)

/-! ## Strings -/

/-- A unit is decided by what was read. -/
lemma isDecided_hexUnit : IsDecided leaveBehind hexUnit := by
  intro s t
  rcases s with _ | ⟨a, _ | ⟨b, _ | ⟨c, _ | ⟨d, s⟩⟩⟩⟩
  · exact .inl rfl
  · exact .inl rfl
  · exact .inl rfl
  · exact .inl rfl
  · right
    simp only [List.cons_append, hexUnit]
    split <;> rfl

/-- The second half of a pair is decided by what was read. -/
lemma isDecided_secondUnit (high : Nat) : IsDecided leaveBehind (secondUnit high) := by
  intro s t
  rcases isDecided_keyword [Byte.backslash, Byte.unit] s t with hmore | hkeyword
  · exact .inl (by rw [secondUnit, hmore])
  rcases hs : keyword [Byte.backslash, Byte.unit] s with e | s₁
  · exact .inr (by simp [secondUnit, hkeyword, hs, Except.map])
  rcases isDecided_hexUnit s₁ t with hmore | hunit
  · exact .inl (by simp [secondUnit, hs, hmore])
  rcases hs₁ : hexUnit s₁ with e | ⟨low, s₂⟩
  · exact .inr (by simp [secondUnit, hkeyword, hs, leave, hunit, hs₁, Except.map])
  · right
    simp only [secondUnit, hkeyword, hs, leave, hunit, hs₁, Except.map, leaveBehind]
    by_cases hlow : isLowSurrogate low = true
    · simp only [if_pos hlow]
    · simp only [if_neg hlow]

/-- A character given by its units is decided by what was read. -/
lemma isDecided_unitEscape : IsDecided leaveBehind unitEscape := by
  refine isDecided_hexUnit.andThen (fun s e h => by rw [unitEscape, h])
    (fun s n rest h => by rw [unitEscape, h]) fun n => ?_
  by_cases hlow : isLowSurrogate n = true
  · simp only [if_pos hlow]
    exact isDecided_error _ _
  by_cases hhigh : isHighSurrogate n = true
  · simp only [if_neg hlow, if_pos hhigh]
    exact isDecided_secondUnit n
  · simp only [if_neg hlow, if_neg hhigh]
    exact isDecided_ok _

/-- An escape is decided by what was read. -/
lemma isDecided_escape : IsDecided leaveBehind escape := by
  intro s t
  rcases s with _ | ⟨b, s⟩
  · exact .inl rfl
  simp only [List.cons_append, escape]
  split
  · exact .inr rfl
  · split
    · exact isDecided_unitEscape s t
    · exact .inr rfl

/-- The bytes of a string are decided by what was read. -/
lemma isDecided_stringBytes (acc : ByteArray) : IsDecided leaveBehind (stringBytes acc) := by
  intro s t
  fun_induction stringBytes acc s with
  | case1 => exact .inl rfl
  | case2 acc s => exact .inr (by rw [List.cons_append, stringBytes, if_pos rfl]; rfl)
  | case3 acc s e hescape =>
    rcases isDecided_escape s t with hmore | hsame
    · rw [hescape] at hmore
      cases hmore
      exact .inl rfl
    · rw [hescape] at hsame
      right
      rw [List.cons_append, stringBytes, if_neg (by decide), if_pos rfl]
      split
      next h => rw [hsame] at h; cases h; rfl
      next h => rw [hsame] at h; cases h
  | case4 acc s c s' hescape _ ih =>
    rcases isDecided_escape s t with hmore | hsame
    · rw [hescape] at hmore
      cases hmore
    · rw [hescape] at hsame
      rwa [List.cons_append, stringBytes_escape hsame]
  | case5 acc b s hq hb hlt =>
    exact .inr (by rw [List.cons_append, stringBytes, if_neg hq, if_neg hb, if_pos hlt]; rfl)
  | case6 acc b s hq hb hlt ih =>
    rwa [List.cons_append, stringBytes_plain _ hq hb (UInt8.not_lt.1 hlt)]

/-- A string is decided by what was read. -/
lemma isDecided_stringBody : IsDecided leaveBehind stringBody := by
  refine (isDecided_stringBytes ByteArray.empty).andThen (fun s e h => by rw [stringBody, h])
    (fun s bytes rest h => by rw [stringBody, h]) fun bytes => ?_
  dsimp only
  rcases Utf8.strict bytes with _ | text
  · exact isDecided_error _ _
  · exact isDecided_ok text

/-! ## Integer literals -/

/-- More digits make a number no smaller. -/
lemma ofDigits_le_append (ds ds' : List Nat) : ofDigits ds ≤ ofDigits (ds ++ ds') := by
  rw [ofDigits, ofDigits, List.foldl_append]
  exact le_foldl_digits ds' _

/-- Only the digit zero stands for zero. -/
lemma digitOfByte_pos {b : UInt8} (hb : isDigit b = true) (hne : b ≠ Byte.zero) :
    0 < digitOfByte b := by
  simp only [isDigit, Bool.and_eq_true, decide_eq_true_eq, UInt8.le_iff_toNat_le] at hb
  have hne : b.toNat ≠ 48 := fun h => hne (UInt8.toNat_inj.1 h)
  have hlow : 48 ≤ b.toNat := hb.1
  rw [digitOfByte]
  omega

/-- A beginning of a whole part is one too, for a number that is no greater, and is zero only if the
number is. -/
lemma WholeForm.beginning (h : WholeForm (s ++ t)) (hs : s ≠ []) :
    WholeForm s ∧ ofDigits (s.map digitOfByte) ≤ ofDigits ((s ++ t).map digitOfByte) ∧
      (ofDigits (s.map digitOfByte) = 0 → ofDigits ((s ++ t).map digitOfByte) = 0) := by
  rcases s with _ | ⟨b, s⟩
  · exact absurd rfl hs
  have hle := ofDigits_le_append ((b :: s).map digitOfByte) (t.map digitOfByte)
  rw [← List.map_append] at hle
  generalize hwhole : b :: s ++ t = whole at h hle
  rcases h with _ | ⟨hb, hne, hd⟩
  · obtain ⟨rfl, hst⟩ := List.cons.inj hwhole
    obtain ⟨rfl, rfl⟩ := List.append_eq_nil_iff.1 hst
    exact ⟨.zero, hle, id⟩
  · obtain ⟨rfl, rfl⟩ := List.cons.inj hwhole
    refine ⟨.digits hb hne fun c hc => hd c (List.mem_append_left t hc), hle, fun hzero => ?_⟩
    -- The first digit is not zero, so neither is the number.
    have hfirst : digitOfByte b ≤ ofDigits ((b :: s).map digitOfByte) := by
      simpa [ofDigits] using le_foldl_digits (s.map digitOfByte) (digitOfByte b)
    have := digitOfByte_pos hb hne
    omega

/-- A beginning of an integer literal is empty, a minus sign, or a literal of the same sign for a
number that is no greater, and is zero only if the number is. -/
lemma Literal.beginning_cases {l : Literal} (h : l.bytes = s ++ t) :
    s = [] ∨ s = [Byte.minus] ∨ ∃ l' : Literal, l'.bytes = s ∧ l'.negative = l.negative ∧
      l'.magnitude ≤ l.magnitude ∧ (l'.magnitude = 0 → l.magnitude = 0) := by
  obtain ⟨negative, whole, hwhole⟩ := l
  rcases s with _ | ⟨b, s⟩
  · exact .inl rfl
  rcases negative with _ | _
  · obtain rfl : whole = b :: s ++ t := h
    obtain ⟨hform, hle, hzero⟩ := hwhole.beginning (List.cons_ne_nil b s)
    exact .inr (.inr ⟨⟨false, b :: s, hform⟩, rfl, rfl, hle, hzero⟩)
  · obtain ⟨rfl, rfl⟩ := List.cons.inj h
    rcases s with _ | ⟨c, s⟩
    · exact .inr (.inl rfl)
    · obtain ⟨hform, hle, hzero⟩ := hwhole.beginning (List.cons_ne_nil c s)
      exact .inr (.inr ⟨⟨true, c :: s, hform⟩, rfl, rfl, hle, hzero⟩)

/-- Where an integer is cut off, more is asked for, or the same is read, or all that is there is
read as an integer nearer to zero. -/
lemma number_cut {z : Int} (h : number (s ++ t) = .ok (.integer z, rest)) :
    Agrees (.integer z) rest t (number s) ∨
      ∃ z', number s = .ok (.integer z', []) ∧ (z ≤ z' ∧ z' ≤ 0 ∨ 0 ≤ z' ∧ z' ≤ z) := by
  obtain ⟨l, hs, hends, hinteger⟩ := number_eq_ok_integer h
  rcases List.append_eq_append_iff.1 hs with ⟨t', hbytes, rfl⟩ | ⟨s', rfl, rfl⟩
  · -- The cut goes through the literal.
    rcases Literal.beginning_cases hbytes with rfl | rfl | ⟨l', rfl, hsign, hle, hzero⟩
    · exact .inl (.inl rfl)
    · exact .inl (.inl rfl)
    · obtain ⟨rfl, hexact, hnegative⟩ := Literal.integer?_numeral.1 hinteger
      have hbetween : l.value ≤ l'.value ∧ l'.value ≤ 0 ∨ 0 ≤ l'.value ∧ l'.value ≤ l.value := by
        simp only [Literal.value, hsign]
        rcases l.negative <;> simp <;> omega
      have hinteger' : l'.numeral.integer? = some l'.value := by
        refine Literal.integer?_numeral.2 ⟨rfl, ?_, fun hz => hnegative ?_⟩
        · simp only [IsExact, leastMagnitude, UInt64.size] at hexact ⊢
          omega
        · exact ⟨hsign ▸ hz.1, hzero hz.2⟩
      have hread := l'.number_append ends_nil
      rw [List.append_nil, Literal.number, Literal.numeral_value? hinteger'] at hread
      exact .inr ⟨l'.value, hread, hbetween⟩
  · -- The cut comes behind the literal.
    have hends' : Ends s' := by
      rcases s' with _ | ⟨b, s'⟩
      · exact ends_nil
      · exact ends_cons (hends b _ rfl)
    refine .inl (.inr ⟨s', ?_, rfl⟩)
    rw [l.number_append hends', Literal.number, Literal.numeral_value? hinteger]
    rfl

/-! ## Scalars -/

/-- What is read can be mapped. -/
lemma IsDecided.map {β γ : Type} {more : List UInt8 → β → β} {more' : List UInt8 → γ → γ}
    {f : List UInt8 → Except ReadError β} {g : β → γ} (hf : IsDecided more f)
    (hg : ∀ t b, g (more t b) = more' t (g b)) : IsDecided more' fun s => (f s).map g := by
  intro s t
  dsimp only
  rcases hf s t with hmore | hsame
  · exact .inl (by rw [hmore]; rfl)
  · right
    rw [hsame]
    rcases f s with e | b
    · rfl
    · exact congrArg Except.ok (hg t b)

/-- A scalar that does not start like a numeral is decided by what was read. -/
lemma isDecided_scalar {b : UInt8} (hb : ¬(b = Byte.minus || isDigit b) = true) :
    IsDecided leaveBehind (scalar b) := by
  by_cases hnull : b = 110
  · subst hnull
    exact (isDecided_keyword Byte.ull).map fun _ _ => rfl
  by_cases htrue : b = 116
  · subst htrue
    exact (isDecided_keyword Byte.rue).map fun _ _ => rfl
  by_cases hfalse : b = 102
  · subst hfalse
    exact (isDecided_keyword Byte.alse).map fun _ _ => rfl
  by_cases hquote : b = 34
  · subst hquote
    exact isDecided_stringBody.map fun _ _ => rfl
  have herror : ∀ s, scalar b s = .error .malformed := by
    intro s
    unfold scalar
    split
    next h => exact absurd (eq_of_ofUInt8 h) hnull
    next h => exact absurd (eq_of_ofUInt8 h) htrue
    next h => exact absurd (eq_of_ofUInt8 h) hfalse
    next h => exact absurd (eq_of_ofUInt8 h) hquote
    next => rw [if_neg hb]
  exact fun s t => .inr (by rw [herror, herror]; rfl)

/-- Where a scalar that is no floating-point number is cut off, more is asked for, or the same is
read, or all that is there is read. -/
lemma scalar_cut {b : UInt8} {v : Value} (hv : ∀ x, v ≠ .number (.float x))
    (h : scalar b (s ++ t) = .ok (v, rest)) :
    Agrees v rest t (scalar b s) ∨ ∃ v', scalar b s = .ok (v', []) := by
  by_cases hb : (b = Byte.minus || isDigit b) = true
  · rw [scalar_of_startsNumeral hb, ← List.cons_append] at h
    obtain ⟨⟨n, rest'⟩, hn, heq⟩ := map_eq_ok h
    cases heq
    rcases n with z | x
    · rw [scalar_of_startsNumeral hb]
      rcases number_cut hn with (hmore | ⟨rest', hsame, rfl⟩) | ⟨z', hz', _⟩
      · exact .inl (.inl (by rw [hmore]; rfl))
      · exact .inl (.inr ⟨rest', by rw [hsame]; rfl, rfl⟩)
      · exact .inr ⟨_, by rw [hz']; rfl⟩
    · exact absurd rfl (hv x)
  · exact .inl ((isDecided_scalar hb).agrees h)

end ContractHost.Json
