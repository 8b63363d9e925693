import ContractHost.Json.StringLiteral

/-!
# Between the parts of arrays and objects

An array is open until its bracket closes: before each element stands nothing, if it is the first,
or a comma.  A comma must be followed by an element.  The same holds of the members of an object,
each of which is a string, a colon and a value.
-/

namespace ContractHost.Json

/-- What stands before the next part of an array or an object: the end, or that part. -/
inductive Next where
  | closed (rest : List UInt8)
  | open (rest : List UInt8)

/-- Looks for the next element of an array. -/
def nextElement (first : Bool) (s : List UInt8) : Except ReadError Next :=
  match skipBlanks s with
  | [] => .error .endOfInput
  | b :: rest =>
    if b = Byte.closeBracket then .ok (.closed rest)
    else if first then .ok (.open (b :: rest))
    else if b = Byte.comma then
      match skipBlanks rest with
      | [] => .error .endOfInput
      | c :: rest' => if c = Byte.closeBracket then .error .malformed else .ok (.open (c :: rest'))
    else .error .malformed

/-- Looks for the key of the next member of an object, and leaves what stands behind its quote. -/
def nextMember (first : Bool) (s : List UInt8) : Except ReadError Next :=
  match skipBlanks s with
  | [] => .error .endOfInput
  | b :: rest =>
    if b = Byte.closeBrace then .ok (.closed rest)
    else if first then if b = Byte.quote then .ok (.open rest) else .error .malformed
    else if b = Byte.comma then
      match skipBlanks rest with
      | [] => .error .endOfInput
      | c :: rest' => if c = Byte.quote then .ok (.open rest') else .error .malformed
    else .error .malformed

/-- Reads the colon between a key and its value. -/
def colon (s : List UInt8) : Except ReadError (List UInt8) := keyword [Byte.colon] (skipBlanks s)

theorem length_tail_skipBlanks {s rest : List UInt8} {b : UInt8} (h : skipBlanks s = b :: rest) :
    rest.length < s.length := by
  have := length_skipBlanks_le s
  rw [h] at this
  exact this

theorem length_nextElement {first : Bool} {s : List UInt8} :
    (∀ {rest}, nextElement first s = .ok (.closed rest) → rest.length < s.length) ∧
    (∀ {rest}, nextElement first s = .ok (.open rest) → rest.length ≤ s.length) := by
  constructor <;> intro r h <;> unfold nextElement at h <;> split at h
  · cases h
  next b rest hs =>
    split at h
    · cases h
      exact length_tail_skipBlanks hs
    · split at h
      · cases h
      · split at h
        · split at h
          · cases h
          · split at h <;> cases h
        · cases h
  · cases h
  next b rest hs =>
    have h₀ := length_tail_skipBlanks hs
    split at h
    · cases h
    · split at h
      · cases h
        exact h₀
      · split at h
        · split at h
          · cases h
          next c rest' hs' =>
            have h₁ := length_tail_skipBlanks hs'
            split at h <;> cases h
            simp only [List.length_cons]
            omega
        · cases h

theorem length_nextMember {first : Bool} {s : List UInt8} :
    (∀ {rest}, nextMember first s = .ok (.closed rest) → rest.length < s.length) ∧
    (∀ {rest}, nextMember first s = .ok (.open rest) → rest.length < s.length) := by
  constructor <;> intro r h <;> unfold nextMember at h <;> split at h
  · cases h
  next b rest hs =>
    split at h
    · cases h
      exact length_tail_skipBlanks hs
    · split at h
      · split at h <;> cases h
      · split at h
        · split at h
          · cases h
          · split at h <;> cases h
        · cases h
  · cases h
  next b rest hs =>
    have h₀ := length_tail_skipBlanks hs
    split at h
    · cases h
    · split at h
      · split at h
        · cases h
          exact h₀
        · cases h
      · split at h
        · split at h
          · cases h
          next c rest' hs' =>
            have h₁ := length_tail_skipBlanks hs'
            split at h <;> cases h
            omega
        · cases h

theorem length_colon_le {s rest : List UInt8} (h : colon s = .ok rest) :
    rest.length ≤ s.length :=
  Nat.le_trans (length_keyword_le h) (length_skipBlanks_le s)

/-! ## Arrays of one kind of element -/

/-- Reads the elements that are left of an array, and its closing bracket. -/
def elements {α : Type} (p : Reader α) (first : Bool) (s : List UInt8) :
    Except ReadError (List α × List UInt8) :=
  match _hn : nextElement first s with
  | .error e => .error e
  | .ok (.closed rest) => .ok ([], rest)
  | .ok (.open s₁) =>
    match _hp : p.run s₁ with
    | .error e => .error e
    | .ok (a, s₂) =>
      match elements p false s₂ with
      | .error e => .error e
      | .ok (as, rest) => .ok (a :: as, rest)
termination_by s.length
decreasing_by
  have := length_nextElement.2 _hn
  have := p.shortens _hp
  omega

theorem length_elements_lt {α : Type} {p : Reader α} {first : Bool} {s rest : List UInt8}
    {as : List α} (h : elements p first s = .ok (as, rest)) : rest.length < s.length := by
  fun_induction elements p first s generalizing as with
  | case1 => cases h
  | case2 first s rest' hn =>
    cases h
    exact length_nextElement.1 hn
  | case3 => cases h
  | case4 => cases h
  | case5 first s s₁ hn a s₂ hp as' rest' he ih =>
    cases h
    have := length_nextElement.2 hn
    have := p.shortens hp
    have := ih he
    omega

/-- Reads the members that are left of an object, whose values all have one kind, and its closing
brace. -/
def members {α : Type} (p : Reader α) (first : Bool) (s : List UInt8) :
    Except ReadError (List (String × α) × List UInt8) :=
  match _hn : nextMember first s with
  | .error e => .error e
  | .ok (.closed rest) => .ok ([], rest)
  | .ok (.open s₁) =>
    match _hk : stringBody s₁ with
    | .error e => .error e
    | .ok (key, s₂) =>
      match _hc : colon s₂ with
      | .error e => .error e
      | .ok s₃ =>
        match _hp : p.run s₃ with
        | .error e => .error e
        | .ok (a, s₄) =>
          match members p false s₄ with
          | .error e => .error e
          | .ok (as, rest) => .ok ((key, a) :: as, rest)
termination_by s.length
decreasing_by
  have := length_nextMember.2 _hn
  have := length_stringBody_lt _hk
  have := length_colon_le _hc
  have := p.shortens _hp
  omega

theorem length_members_lt {α : Type} {p : Reader α} {first : Bool} {s rest : List UInt8}
    {as : List (String × α)} (h : members p first s = .ok (as, rest)) :
    rest.length < s.length := by
  fun_induction members p first s generalizing as with
  | case1 => cases h
  | case2 first s rest' hn =>
    cases h
    exact length_nextMember.1 hn
  | case3 => cases h
  | case4 => cases h
  | case5 => cases h
  | case6 => cases h
  | case7 first s s₁ hn key s₂ hk s₃ hc a s₄ hp as' rest' he ih =>
    cases h
    have := length_nextMember.2 hn
    have := length_stringBody_lt hk
    have := length_colon_le hc
    have := p.shortens hp
    have := ih he
    omega

end ContractHost.Json
