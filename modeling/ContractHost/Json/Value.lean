import ContractHost.Json.Delimiter
import ContractHost.Json.Number

/-!
# JSON values

Values of any shape, with the members of an object in the order of the text.  A name that occurs
more than once counts by its last member.  `Value.reader` reads a value whose arrays and objects
nest at most a given number of levels; deeper ones are malformed.
-/

namespace ContractHost.Json

/-- A JSON value. -/
inductive Value where
  | null
  | boolean (b : Bool)
  | number (n : Number)
  | string (s : String)
  | array (elements : List Value)
  | object (members : List (String × Value))
  deriving Inhabited

/-- How many arrays and objects may be open at once. -/
def greatestDepth : Nat := 127

/-- What a number is reported as. -/
def Number.found : Number → Found
  | integer z => .integer z
  | float x => .float x

namespace Value

/-- What a value is reported as. -/
def found : Value → Found
  | null => .null
  | boolean b => .boolean b
  | number n => n.found
  | string s => .string s
  | array _ => .sequence
  | object _ => .map

/-- The value of a member by its name: the last of that name. -/
def member? (members : List (String × Value)) (name : String) : Option Value :=
  (members.reverse.find? (·.1 == name)).map (·.2)

end Value

/-! ## Reading -/

/-- Reads `null`, `true`, `false`, a number or a string from its first byte on.  Where none of them
starts there, the text is malformed. -/
def scalar (b : UInt8) (s : List UInt8) : Except ReadError (Value × List UInt8) :=
  match Char.ofUInt8 b with
  | 'n' => (keyword Byte.ull s).map fun rest => (.null, rest)
  | 't' => (keyword Byte.rue s).map fun rest => (.boolean true, rest)
  | 'f' => (keyword Byte.alse s).map fun rest => (.boolean false, rest)
  | '"' => (stringBody s).map fun (text, rest) => (.string text, rest)
  | _ =>
    if b = Byte.minus || Decimal.isDigit b then
      (number (b :: s)).map fun (n, rest) => (.number n, rest)
    else .error .malformed

theorem map_eq_ok {α β ε : Type} {x : Except ε α} {f : α → β} {b : β}
    (h : x.map f = .ok b) : ∃ a, x = .ok a ∧ f a = b := by
  cases x with
  | error e => cases h
  | ok a =>
    cases h
    exact ⟨a, rfl, rfl⟩

theorem length_scalar_le {b : UInt8} {s rest : List UInt8} {v : Value}
    (h : scalar b s = .ok (v, rest)) : rest.length ≤ s.length := by
  unfold scalar at h
  split at h
  · obtain ⟨r, hr, he⟩ := map_eq_ok h
    cases he
    exact length_keyword_le hr
  · obtain ⟨r, hr, he⟩ := map_eq_ok h
    cases he
    exact length_keyword_le hr
  · obtain ⟨r, hr, he⟩ := map_eq_ok h
    cases he
    exact length_keyword_le hr
  · obtain ⟨⟨t, r⟩, hr, he⟩ := map_eq_ok h
    cases he
    exact Nat.le_of_lt (length_stringBody_lt hr)
  · split at h
    · obtain ⟨⟨n, r⟩, hr, he⟩ := map_eq_ok h
      cases he
      exact Nat.le_of_lt_succ (length_number_lt hr)
    · cases h

namespace Value

/-- Reads a value from its first byte on.  `inner` reads what an array or an object holds. -/
def readWith (inner : Option (Reader Value)) (s : List UInt8) :
    Except ReadError (Value × List UInt8) :=
  match skipBlanks s with
  | [] => .error .endOfInput
  | b :: rest =>
    if b = Byte.openBracket then
      match inner with
      | none => .error .malformed
      | some p => (elements p true rest).map fun (vs, rest') => (.array vs, rest')
    else if b = Byte.openBrace then
      match inner with
      | none => .error .malformed
      | some p => (members p true rest).map fun (vs, rest') => (.object vs, rest')
    else scalar b rest

theorem length_readWith_lt {inner : Option (Reader Value)} {s rest : List UInt8} {v : Value}
    (h : readWith inner s = .ok (v, rest)) : rest.length < s.length := by
  unfold readWith at h
  split at h
  · cases h
  next b s' hs =>
    have h₀ := length_tail_skipBlanks hs
    split at h
    · split at h
      · cases h
      · obtain ⟨⟨vs, r⟩, hr, he⟩ := map_eq_ok h
        cases he
        exact Nat.lt_trans (length_elements_lt hr) h₀
    · split at h
      · split at h
        · cases h
        · obtain ⟨⟨vs, r⟩, hr, he⟩ := map_eq_ok h
          cases he
          exact Nat.lt_trans (length_members_lt hr) h₀
      · exact Nat.lt_of_le_of_lt (length_scalar_le h) h₀

/-- Reads a value in which arrays and objects nest at most `levels` deep. -/
def reader : (levels : Nat) → Reader Value
  | 0 => ⟨readWith none, length_readWith_lt⟩
  | levels + 1 => ⟨readWith (some (reader levels)), length_readWith_lt⟩

/-- The value of a whole text. -/
def ofBytes (s : List UInt8) : Except ReadError Value := readAll (reader greatestDepth) s

end Value

end ContractHost.Json
