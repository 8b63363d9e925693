import ContractHost.Json.Delimiter

/-!
# Values that are passed over

A value that nobody asked for is only checked for its form, at any depth: the numbers in it may be
out of range, and the strings in it need not be well-formed text.  What is open around the place
reached is kept as a list, innermost first, so that nesting costs no stack.
-/

namespace ContractHost.Json

/-! ## Numbers by their form -/

/-- Drops the digits at the front. -/
def dropDigits (s : List UInt8) : List UInt8 := s.dropWhile Decimal.isDigit

theorem length_dropDigits_le (s : List UInt8) : (dropDigits s).length ≤ s.length :=
  (List.dropWhile_sublist _).length_le

/-- Passes over at least one digit. -/
def passDigits : List UInt8 → Except ReadError (List UInt8)
  | [] => .error .malformed
  | b :: s => if Decimal.isDigit b then .ok (dropDigits s) else .error .malformed

theorem length_passDigits_lt {s rest : List UInt8} (h : passDigits s = .ok rest) :
    rest.length < s.length := by
  unfold passDigits at h
  split at h
  · cases h
  · split at h <;> cases h
    exact Nat.lt_succ_of_le (length_dropDigits_le _)

/-- Passes over an exponent, if one follows. -/
def passExponent : List UInt8 → Except ReadError (List UInt8)
  | [] => .ok []
  | b :: s =>
    if b = Byte.lowerE || b = Byte.upperE then
      match s with
      | [] => .error .malformed
      | c :: s' => if c = Byte.plus || c = Byte.minus then passDigits s' else passDigits (c :: s')
    else .ok (b :: s)

theorem length_passExponent_le {s rest : List UInt8} (h : passExponent s = .ok rest) :
    rest.length ≤ s.length := by
  unfold passExponent at h
  split at h
  · cases h
    exact Nat.le_refl _
  · split at h
    · split at h
      · cases h
      · split at h
        · have := length_passDigits_lt h
          simp only [List.length_cons]
          omega
        · have := length_passDigits_lt h
          simp only [List.length_cons] at *
          omega
    · cases h
      exact Nat.le_refl _

/-- Passes over a fraction and an exponent, if they follow. -/
def passFraction : List UInt8 → Except ReadError (List UInt8)
  | [] => .ok []
  | b :: s =>
    if b = Byte.point then
      match passDigits s with
      | .ok rest => passExponent rest
      | .error e => .error e
    else passExponent (b :: s)

theorem length_passFraction_le {s rest : List UInt8} (h : passFraction s = .ok rest) :
    rest.length ≤ s.length := by
  unfold passFraction at h
  split at h
  · cases h
    exact Nat.le_refl _
  · split at h
    · split at h
      next hd =>
        have := length_passDigits_lt hd
        have := length_passExponent_le h
        simp only [List.length_cons]
        omega
      next => cases h
    · exact length_passExponent_le h

/-- Passes over a number without its sign. -/
def passNumber : List UInt8 → Except ReadError (List UInt8)
  | [] => .error .malformed
  | b :: s =>
    if b = Byte.zero then
      match s with
      | [] => .ok []
      | c :: _ => if Decimal.isDigit c then .error .malformed else passFraction s
    else if Decimal.isDigit b then passFraction (dropDigits s)
    else .error .malformed

theorem length_passNumber_lt {s rest : List UInt8} (h : passNumber s = .ok rest) :
    rest.length < s.length := by
  unfold passNumber at h
  split at h
  · cases h
  · split at h
    · split at h
      · cases h
        simp
      · split at h
        · cases h
        · exact Nat.lt_succ_of_le (length_passFraction_le h)
    · split at h
      · exact Nat.lt_succ_of_le (Nat.le_trans (length_passFraction_le h) (length_dropDigits_le _))
      · cases h

/-! ## Values -/

/-- An array or an object that is still open. -/
inductive Enclosing where
  | array
  | object
  deriving DecidableEq

/-- The byte that closes what is open. -/
def Enclosing.closing : Enclosing → UInt8
  | array => 93
  | object => 125

/-- What a value turned out to be: one without parts, or the opening of one with parts. -/
inductive Passed where
  | whole (rest : List UInt8)
  | opened (enclosing : Enclosing) (rest : List UInt8)

/-- The bytes behind what was passed. -/
def Passed.rest : Passed → List UInt8
  | whole rest => rest
  | opened _ rest => rest

/-- Passes over a value without parts, or over the opening of one with parts. -/
def passStart (s : List UInt8) : Except ReadError Passed :=
  match skipBlanks s with
  | [] => .error .endOfInput
  | b :: rest =>
    match Char.ofUInt8 b with
    | 'n' => (keyword Byte.ull rest).map .whole
    | 't' => (keyword Byte.rue rest).map .whole
    | 'f' => (keyword Byte.alse rest).map .whole
    | '"' => (passString rest).map .whole
    | '-' => (passNumber rest).map .whole
    | '[' => .ok (.opened .array rest)
    | '{' => .ok (.opened .object rest)
    | _ => if Decimal.isDigit b then (passNumber (b :: rest)).map .whole else .error .malformed

theorem exists_of_map_whole {x : Except ReadError (List UInt8)} {r : Passed}
    (h : x.map .whole = .ok r) : ∃ rest, x = .ok rest ∧ r.rest = rest := by
  cases x with
  | error e => cases h
  | ok a =>
    cases h
    exact ⟨a, rfl, rfl⟩

theorem length_passStart_lt {s : List UInt8} {r : Passed} (h : passStart s = .ok r) :
    r.rest.length < s.length := by
  unfold passStart at h
  split at h
  · cases h
  next b rest hs =>
    have h₀ := length_tail_skipBlanks hs
    have h₁ := length_skipBlanks_le s
    rw [hs] at h₁
    split at h
    · obtain ⟨rest', hr, he⟩ := exists_of_map_whole h
      rw [he]
      exact Nat.lt_of_le_of_lt (length_keyword_le hr) h₀
    · obtain ⟨rest', hr, he⟩ := exists_of_map_whole h
      rw [he]
      exact Nat.lt_of_le_of_lt (length_keyword_le hr) h₀
    · obtain ⟨rest', hr, he⟩ := exists_of_map_whole h
      rw [he]
      exact Nat.lt_of_le_of_lt (length_keyword_le hr) h₀
    · obtain ⟨rest', hr, he⟩ := exists_of_map_whole h
      rw [he]
      exact Nat.lt_trans (length_passString_lt hr) h₀
    · obtain ⟨rest', hr, he⟩ := exists_of_map_whole h
      rw [he]
      exact Nat.lt_trans (length_passNumber_lt hr) h₀
    · cases h
      exact h₀
    · cases h
      exact h₀
    · split at h
      · obtain ⟨rest', hr, he⟩ := exists_of_map_whole h
        rw [he]
        exact Nat.lt_of_lt_of_le (length_passNumber_lt hr) h₁
      · cases h

/-- What stands behind a part, or behind the opening, of something that is open. -/
inductive Step where
  | closed (rest : List UInt8)
  | value (rest : List UInt8)

/-- The bytes behind what was passed. -/
def Step.rest : Step → List UInt8
  | closed rest => rest
  | value rest => rest

/-- Passes over a key and its colon. -/
def passKey (s : List UInt8) : Except ReadError (List UInt8) :=
  match skipBlanks s with
  | [] => .error .endOfInput
  | b :: rest =>
    if b = Byte.quote then
      match passString rest with
      | .ok rest' => colon rest'
      | .error e => .error e
    else .error .malformed

theorem length_passKey_lt {s rest : List UInt8} (h : passKey s = .ok rest) :
    rest.length < s.length := by
  unfold passKey at h
  split at h
  · cases h
  next b s' hs =>
    have h₀ := length_tail_skipBlanks hs
    split at h
    · split at h
      next hp =>
        have := length_passString_lt hp
        have := length_colon_le h
        omega
      next => cases h
    · cases h

/-- Where the next part starts: at once if it is the first, else behind a comma. -/
def partStart (first : Bool) (b : UInt8) (rest : List UInt8) : Option (List UInt8) :=
  if first then some (b :: rest) else if b = Byte.comma then some rest else none

theorem length_partStart_le {first : Bool} {b : UInt8} {rest s : List UInt8}
    (h : partStart first b rest = some s) : s.length ≤ rest.length + 1 := by
  unfold partStart at h
  split at h
  · cases h
    exact Nat.le_refl _
  · split at h <;> cases h
    exact Nat.le_succ _

/-- Goes to the next value of something that is open, or closes it. -/
def passNext (enclosing : Enclosing) (first : Bool) (s : List UInt8) : Except ReadError Step :=
  match skipBlanks s with
  | [] => .error .endOfInput
  | b :: rest =>
    if b = enclosing.closing then .ok (.closed rest)
    else
      match partStart first b rest with
      | none => .error .malformed
      | some s₁ =>
        match enclosing with
        | .array => .ok (.value s₁)
        | .object =>
          match passKey s₁ with
          | .ok s₂ => .ok (.value s₂)
          | .error e => .error e

theorem length_passNext_le {enclosing : Enclosing} {first : Bool} {s : List UInt8} {r : Step}
    (h : passNext enclosing first s = .ok r) : r.rest.length ≤ s.length := by
  unfold passNext at h
  split at h
  · cases h
  next b rest hs =>
    have h₀ := length_tail_skipBlanks hs
    split at h
    · cases h
      exact Nat.le_of_lt h₀
    · split at h
      · cases h
      next s₁ hp =>
        have h₁ := length_partStart_le hp
        split at h
        · cases h
          simp only [Step.rest]
          omega
        · split at h
          next s₂ hk =>
            cases h
            have := length_passKey_lt hk
            simp only [Step.rest]
            omega
          next => cases h

/-- Where the reader stands: before a value, or behind a part or the opening of something open. -/
inductive Place where
  | atValue
  | inside (first : Bool)

/-- Passes over the rest of a value, with what is open around the place reached. -/
def pass (opened : List Enclosing) (place : Place) (s : List UInt8) :
    Except ReadError (List UInt8) :=
  match place, opened with
  | .atValue, _ =>
    match _h : passStart s with
    | .error e => .error e
    | .ok (.whole rest) => pass opened (.inside false) rest
    | .ok (.opened enclosing rest) => pass (enclosing :: opened) (.inside true) rest
  | .inside _, [] => .ok s
  | .inside first, enclosing :: outer =>
    match _h : passNext enclosing first s with
    | .error e => .error e
    | .ok (.closed rest) => pass outer (.inside false) rest
    | .ok (.value rest) => pass (enclosing :: outer) .atValue rest
termination_by (s.length, opened.length, match place with | .atValue => 0 | .inside _ => 1)
decreasing_by
  · have := length_passStart_lt _h
    simp only [Passed.rest] at this
    exact Prod.Lex.left _ _ this
  · have := length_passStart_lt _h
    simp only [Passed.rest] at this
    exact Prod.Lex.left _ _ this
  · have := length_passNext_le _h
    simp only [Step.rest] at this
    rcases Nat.lt_or_eq_of_le this with h | h
    · exact Prod.Lex.left _ _ h
    · rw [h]
      exact Prod.Lex.right _ (Prod.Lex.left _ _ (by simp))
  · have := length_passNext_le _h
    simp only [Step.rest] at this
    rcases Nat.lt_or_eq_of_le this with h | h
    · exact Prod.Lex.left _ _ h
    · rw [h]
      exact Prod.Lex.right _ (Prod.Lex.right _ (by decide))

theorem length_pass_le {opened : List Enclosing} {place : Place} {s rest : List UInt8}
    (h : pass opened place s = .ok rest) : rest.length ≤ s.length := by
  fun_induction pass opened place s with
  | case1 => cases h
  | case2 opened s rest' hp ih =>
    have := length_passStart_lt hp
    have := ih h
    simp only [Passed.rest] at *
    omega
  | case3 opened s enclosing rest' hp ih =>
    have := length_passStart_lt hp
    have := ih h
    simp only [Passed.rest] at *
    omega
  | case4 =>
    cases h
    exact Nat.le_refl _
  | case5 => cases h
  | case6 s first enclosing outer rest' hp ih =>
    have := length_passNext_le hp
    have := ih h
    simp only [Step.rest] at *
    omega
  | case7 s first enclosing outer rest' hp ih =>
    have := length_passNext_le hp
    have := ih h
    simp only [Step.rest] at *
    omega

/-- Passes over one value. -/
def passValue (s : List UInt8) : Except ReadError (List UInt8) := pass [] .atValue s

theorem length_passValue_lt {s rest : List UInt8} (h : passValue s = .ok rest) :
    rest.length < s.length := by
  unfold passValue at h
  rw [pass] at h
  split at h
  · cases h
  next hp =>
    have := length_passStart_lt hp
    have := length_pass_le h
    simp only [Passed.rest] at *
    omega
  next hp =>
    have := length_passStart_lt hp
    have := length_pass_le h
    simp only [Passed.rest] at *
    omega

end ContractHost.Json
