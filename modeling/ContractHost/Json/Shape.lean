import ContractHost.Json.Value

/-!
# Values of a known shape

Strings, integers of a range, sequences and optional values, each read straight from the text and
taken from a value that was read before.  A value of another kind is read as far as its first byte
demands, so that a malformed one is reported as such, and then refused with what was expected.
-/

namespace ContractHost.Json

/-- What an integer of a range is called, and the range. -/
structure IntegerRange where
  name : String
  least : Int
  greatest : Int

namespace IntegerRange

/-- Signed bytes. -/
def i8 : IntegerRange := ⟨"i8", -128, 127⟩

/-- Unsigned words of 32 bits. -/
def u32 : IntegerRange := ⟨"u32", 0, 0xffffffff⟩

/-- Unsigned words of 64 bits. -/
def u64 : IntegerRange := ⟨"u64", 0, 0xffffffffffffffff⟩

/-- Unsigned words that count something in memory. -/
def usize : IntegerRange := ⟨"usize", 0, 0xffffffffffffffff⟩

/-- The integer that a number is, if it is one of the range. -/
def ofNumber (r : IntegerRange) : Number → Except Mismatch Int
  | .integer z =>
    if r.least ≤ z ∧ z ≤ r.greatest then .ok z else .error (.invalidValue (.integer z) r.name)
  | .float x => .error (.invalidType (.float x) r.name)

/-- The integer that a value is, if it is one of the range. -/
def ofValue (r : IntegerRange) : Value → Except Mismatch Int
  | .number n => r.ofNumber n
  | v => .error (.invalidType v.found r.name)

end IntegerRange

/-- The error for a value that starts with `b` where something else was expected. -/
def wrongKind (expected : String) (b : UInt8) (rest : List UInt8) : ReadError :=
  if b = Byte.openBracket then .mismatch (.invalidType .sequence expected)
  else if b = Byte.openBrace then .mismatch (.invalidType .map expected)
  else
    match scalar b rest with
    | .ok (v, _) => .mismatch (.invalidType v.found expected)
    | .error e => e

/-! ## From the text -/

/-- Reads behind blanks by the first byte; `f` is given that byte and the rest. -/
def Reader.byFirst {α : Type} (f : UInt8 → List UInt8 → Except ReadError (α × List UInt8))
    (shortens : ∀ {b s a rest}, f b s = .ok (a, rest) → rest.length ≤ s.length) : Reader α where
  run s :=
    match skipBlanks s with
    | [] => .error .endOfInput
    | b :: rest => f b rest
  shortens := by
    intro s a rest h
    split at h
    · cases h
    next hs => exact Nat.lt_of_le_of_lt (shortens h) (length_tail_skipBlanks hs)

/-- Reads a string that starts with `b`. -/
def stringFrom (b : UInt8) (s : List UInt8) : Except ReadError (String × List UInt8) :=
  if b = Byte.quote then stringBody s else .error (wrongKind "a string" b s)

/-- Reads a string. -/
def Reader.string : Reader String :=
  Reader.byFirst stringFrom fun {b s a rest} h => by
    unfold stringFrom at h
    split at h
    · exact Nat.le_of_lt (length_stringBody_lt h)
    · cases h

/-- Reads an integer of a range that starts with `b`. -/
def integerFrom (r : IntegerRange) (b : UInt8) (s : List UInt8) :
    Except ReadError (Int × List UInt8) :=
  if b = Byte.minus || Decimal.isDigit b then
    match number (b :: s) with
    | .error e => .error e
    | .ok (n, rest) =>
      match r.ofNumber n with
      | .ok z => .ok (z, rest)
      | .error m => .error (.mismatch m)
  else .error (wrongKind r.name b s)

/-- Reads an integer of a range. -/
def Reader.integer (r : IntegerRange) : Reader Int :=
  Reader.byFirst (integerFrom r) fun {b s a rest} h => by
    unfold integerFrom at h
    split at h
    · split at h
      · cases h
      next hn =>
        split at h <;> cases h
        exact Nat.le_of_lt_succ (length_number_lt hn)
    · cases h

/-- Reads a sequence that starts with `b`. -/
def listFrom {α : Type} (p : Reader α) (b : UInt8) (s : List UInt8) :
    Except ReadError (List α × List UInt8) :=
  if b = Byte.openBracket then elements p true s else .error (wrongKind "a sequence" b s)

/-- Reads a sequence. -/
def Reader.list {α : Type} (p : Reader α) : Reader (List α) :=
  Reader.byFirst (listFrom p) fun {b s a rest} h => by
    unfold listFrom at h
    split at h
    · exact Nat.le_of_lt (length_elements_lt h)
    · cases h

/-- Reads `null` as nothing, and any other value with the reader given. -/
def Reader.optional {α : Type} (p : Reader α) : Reader (Option α) where
  run s :=
    match skipBlanks s with
    | [] => .error .endOfInput
    | b :: rest =>
      if b = Byte.n then
        match keyword Byte.ull rest with
        | .ok rest' => .ok (none, rest')
        | .error e => .error e
      else (p.map some).run (b :: rest)
  shortens := by
    intro s a rest h
    split at h
    · cases h
    next b s' hs =>
      have h₀ := length_tail_skipBlanks hs
      have h₁ := length_skipBlanks_le s
      rw [hs] at h₁
      split at h
      · split at h
        next hk =>
          cases h
          exact Nat.lt_of_le_of_lt (length_keyword_le hk) h₀
        next => cases h
      · exact Nat.lt_of_lt_of_le ((p.map some).shortens h) h₁

/-! ## From a value -/

namespace Value

/-- The elements of an array, each taken by `f`; the first that is refused decides. -/
def toList {α : Type} (f : Value → Except Mismatch α) : Value → Except Mismatch (List α)
  | array vs => vs.mapM f
  | v => .error (.invalidType v.found "a sequence")

/-- Nothing for `null`, and any other value taken by `f`. -/
def toOption {α : Type} (f : Value → Except Mismatch α) : Value → Except Mismatch (Option α)
  | null => .ok none
  | v => (f v).map some

end Value

end ContractHost.Json
