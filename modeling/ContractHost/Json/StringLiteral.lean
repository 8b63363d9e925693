import ContractHost.Json.Reader
import ContractHost.Text.Utf8

/-!
# JSON strings

A string runs from a quote to the next quote that no backslash escapes.  Control characters must be
escaped; an escape by four hexadecimal digits names a UTF-16 unit, so a character beyond the basic
plane takes two of them, and half a pair alone is malformed.  The bytes between escapes must be
well-formed UTF-8 together with what the escapes stand for.

A string whose value is not needed is passed over by `passString`, which checks neither the pairing
of escapes nor the encoding.
-/

namespace ContractHost.Json

/-- The value of a hexadecimal digit. -/
def hexDigit? (b : UInt8) : Option Nat :=
  let n := b.toNat
  if 48 ≤ n && n ≤ 57 then some (n - 48)
  else if 65 ≤ n && n ≤ 70 then some (n - 55)
  else if 97 ≤ n && n ≤ 102 then some (n - 87)
  else none

/-- Reads four hexadecimal digits. -/
def hexUnit : List UInt8 → Except ReadError (Nat × List UInt8)
  | a :: b :: c :: d :: rest =>
    match hexDigit? a, hexDigit? b, hexDigit? c, hexDigit? d with
    | some a, some b, some c, some d => .ok (((a * 16 + b) * 16 + c) * 16 + d, rest)
    | _, _, _, _ => .error .malformed
  | _ => .error .endOfInput

theorem length_hexUnit_lt {s rest : List UInt8} {n : Nat} (h : hexUnit s = .ok (n, rest)) :
    rest.length < s.length := by
  unfold hexUnit at h
  split at h
  · split at h
    · cases h
      simp only [List.length_cons]
      omega
    · cases h
  · cases h

/-- A UTF-16 unit that begins a pair. -/
def isHighSurrogate (n : Nat) : Bool := 0xD800 ≤ n && n ≤ 0xDBFF

/-- A UTF-16 unit that ends a pair. -/
def isLowSurrogate (n : Nat) : Bool := 0xDC00 ≤ n && n ≤ 0xDFFF

/-- Reads the second half of a pair whose first half is given. -/
def secondUnit (high : Nat) (s : List UInt8) : Except ReadError (Char × List UInt8) :=
  match keyword [Byte.backslash, Byte.unit] s with
  | .error e => .error e
  | .ok s₁ =>
    match hexUnit s₁ with
    | .error e => .error e
    | .ok (low, rest) =>
      if isLowSurrogate low then
        .ok (Char.ofNat ((high - 0xD800) * 1024 + (low - 0xDC00) + 0x10000), rest)
      else .error .malformed

theorem length_secondUnit_lt {high : Nat} {s rest : List UInt8} {c : Char}
    (h : secondUnit high s = .ok (c, rest)) : rest.length < s.length := by
  unfold secondUnit at h
  split at h
  · cases h
  next hk =>
    split at h
    · cases h
    next hu =>
      split at h
      · simp only [Except.ok.injEq, Prod.mk.injEq] at h
        obtain ⟨_, rfl⟩ := h
        exact Nat.lt_of_lt_of_le (length_hexUnit_lt hu) (length_keyword_le hk)
      · cases h

/-- Reads a character that is written by its UTF-16 units, behind the first `u`. -/
def unitEscape (s : List UInt8) : Except ReadError (Char × List UInt8) :=
  match hexUnit s with
  | .error e => .error e
  | .ok (n, rest) =>
    if isLowSurrogate n then .error .malformed
    else if isHighSurrogate n then secondUnit n rest
    else .ok (Char.ofNat n, rest)

theorem length_unitEscape_lt {s rest : List UInt8} {c : Char}
    (h : unitEscape s = .ok (c, rest)) : rest.length < s.length := by
  unfold unitEscape at h
  split at h
  · cases h
  next hu =>
    split at h
    · cases h
    · split at h
      · exact Nat.lt_trans (length_secondUnit_lt h) (length_hexUnit_lt hu)
      · simp only [Except.ok.injEq, Prod.mk.injEq] at h
        obtain ⟨_, rfl⟩ := h
        exact length_hexUnit_lt hu

/-- The character of an escape of one letter. -/
def letterEscape? (b : UInt8) : Option Char :=
  match Char.ofUInt8 b with
  | '"' => some '"'
  | '\\' => some '\\'
  | '/' => some '/'
  | 'b' => some '\x08'
  | 'f' => some '\x0c'
  | 'n' => some '\n'
  | 'r' => some '\r'
  | 't' => some '\t'
  | _ => none

/-- Reads an escape behind its backslash. -/
def escape : List UInt8 → Except ReadError (Char × List UInt8)
  | [] => .error .endOfInput
  | b :: s =>
    match letterEscape? b with
    | some c => .ok (c, s)
    | none => if b = Byte.unit then unitEscape s else .error .malformed

theorem length_escape_lt {s rest : List UInt8} {c : Char}
    (h : escape s = .ok (c, rest)) : rest.length < s.length := by
  unfold escape at h
  split at h
  · cases h
  · split at h
    · cases h
      exact Nat.lt_succ_self _
    · split at h
      · exact Nat.lt_succ_of_lt (length_unitEscape_lt h)
      · cases h

/-- Reads to the closing quote, and adds the bytes read to those given. -/
def stringBytes (acc : ByteArray) : List UInt8 → Except ReadError (ByteArray × List UInt8)
  | [] => .error .endOfInput
  | b :: s =>
    if b = Byte.quote then .ok (acc, s)
    else if b = Byte.backslash then
      match _h : escape s with
      | .error e => .error e
      | .ok (c, rest) => stringBytes (acc ++ (String.singleton c).toUTF8) rest
    else if b < 32 then .error .malformed
    else stringBytes (acc.push b) s
termination_by s => s.length
decreasing_by
  · have := length_escape_lt _h
    simp only [List.length_cons]
    omega
  · simp

theorem length_stringBytes_lt {acc bytes : ByteArray} {s rest : List UInt8}
    (h : stringBytes acc s = .ok (bytes, rest)) : rest.length < s.length := by
  fun_induction stringBytes acc s with
  | case1 => cases h
  | case2 acc s =>
    cases h
    exact Nat.lt_succ_self _
  | case3 => cases h
  | case4 acc s c rest' he _ ih =>
    have := ih h
    have := length_escape_lt he
    simp only [List.length_cons]
    omega
  | case5 => cases h
  | case6 acc b s h₁ h₂ h₃ ih => exact Nat.lt_succ_of_lt (ih h)

/-- Reads a string behind its opening quote. -/
def stringBody (s : List UInt8) : Except ReadError (String × List UInt8) :=
  match stringBytes ByteArray.empty s with
  | .error e => .error e
  | .ok (bytes, rest) =>
    match Utf8.strict bytes with
    | some text => .ok (text, rest)
    | none => .error .malformed

theorem length_stringBody_lt {s rest : List UInt8} {text : String}
    (h : stringBody s = .ok (text, rest)) : rest.length < s.length := by
  unfold stringBody at h
  split at h
  · cases h
  next hb =>
    split at h <;> cases h
    exact length_stringBytes_lt hb

/-! ## Strings that are passed over -/

/-- Passes over an escape behind its backslash. -/
def passEscape : List UInt8 → Except ReadError (List UInt8)
  | [] => .error .endOfInput
  | b :: s =>
    match letterEscape? b with
    | some _ => .ok s
    | none =>
      if b = Byte.unit then
        match hexUnit s with
        | .ok (_, rest) => .ok rest
        | .error e => .error e
      else .error .malformed

theorem length_passEscape_lt {s rest : List UInt8} (h : passEscape s = .ok rest) :
    rest.length < s.length := by
  unfold passEscape at h
  split at h
  · cases h
  · split at h
    · cases h
      exact Nat.lt_succ_self _
    · split at h
      · split at h
        next hu =>
          cases h
          exact Nat.lt_succ_of_lt (length_hexUnit_lt hu)
        next => cases h
      · cases h

/-- Passes over a string behind its opening quote. -/
def passString : List UInt8 → Except ReadError (List UInt8)
  | [] => .error .endOfInput
  | b :: s =>
    if b = Byte.quote then .ok s
    else if b = Byte.backslash then
      match _h : passEscape s with
      | .error e => .error e
      | .ok rest => passString rest
    else if b < 32 then .error .malformed
    else passString s
termination_by s => s.length
decreasing_by
  · have := length_passEscape_lt _h
    simp only [List.length_cons]
    omega
  · simp

theorem length_passString_lt {s rest : List UInt8} (h : passString s = .ok rest) :
    rest.length < s.length := by
  fun_induction passString s with
  | case1 => cases h
  | case2 s =>
    cases h
    exact Nat.lt_succ_self _
  | case3 => cases h
  | case4 s rest' he _ ih =>
    have := ih h
    have := length_passEscape_lt he
    simp only [List.length_cons]
    omega
  | case5 => cases h
  | case6 b s h₁ h₂ h₃ ih => exact Nat.lt_succ_of_lt (ih h)

end ContractHost.Json
