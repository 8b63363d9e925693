import ContractHost.Json.Shape
import ContractHost.Json.Skip

/-!
# Records

A record is written as an object, whose members may come in any order, or as an array of its fields
in their fixed order.  Members of unknown name are passed over; a field that occurs twice is
refused at its second name.  A field that does not occur keeps the value that it has at the start;
whether that will do is decided at the end.
-/

namespace ContractHost.Json

/-- A field of a record that is being put together in a state of type `σ`. -/
structure Field (σ : Type) where
  name : String
  given : σ → Bool
  reader : Reader (σ → σ)

/-- The fields of a record, the state in which none of them is given, and how the record is made of
the state at the end: a failure is the index of the first field that is missing. -/
structure RecordShape (σ α : Type) where
  name : String
  fields : List (Field σ)
  start : σ
  finish : σ → Except Nat α

namespace Field

/-- A field that is kept as an option while the record is put together. -/
def ofReader {σ α : Type} (name : String) (get : σ → Option α) (set : α → σ → σ)
    (p : Reader α) : Field σ :=
  ⟨name, fun st => (get st).isSome, p.map set⟩

/-- Reads the members that are left of an object. -/
def readMembers {σ : Type} (fields : List (Field σ)) (state : σ) (first : Bool)
    (s : List UInt8) : Except ReadError (σ × List UInt8) :=
  match _hn : nextMember first s with
  | .error e => .error e
  | .ok (.closed rest) => .ok (state, rest)
  | .ok (.open s₁) =>
    match _hk : stringBody s₁ with
    | .error e => .error e
    | .ok (key, s₂) =>
      match fields.find? (·.name == key) with
      | none =>
        match _hc : colon s₂ with
        | .error e => .error e
        | .ok s₃ =>
          match _hp : passValue s₃ with
          | .error e => .error e
          | .ok s₄ => readMembers fields state false s₄
      | some field =>
        if field.given state then .error (.mismatch (.duplicateField key))
        else
          match _hc : colon s₂ with
          | .error e => .error e
          | .ok s₃ =>
            match _hp : field.reader.run s₃ with
            | .error e => .error e
            | .ok (update, s₄) => readMembers fields (update state) false s₄
termination_by s.length
decreasing_by
  · have := length_nextMember.2 _hn
    have := length_stringBody_lt _hk
    have := length_colon_le _hc
    have := length_passValue_lt _hp
    omega
  · have := length_nextMember.2 _hn
    have := length_stringBody_lt _hk
    have := length_colon_le _hc
    have := field.reader.shortens _hp
    omega

theorem length_readMembers_lt {σ : Type} {fields : List (Field σ)} {state state' : σ}
    {first : Bool} {s rest : List UInt8}
    (h : readMembers fields state first s = .ok (state', rest)) : rest.length < s.length := by
  fun_induction readMembers fields state first s with
  | case1 => cases h
  | case2 state first s rest' hn =>
    cases h
    exact length_nextMember.1 hn
  | case3 => cases h
  | case4 => cases h
  | case5 => cases h
  | case6 state first s s₁ hn key s₂ hk hf s₃ hc s₄ hp ih =>
    have := length_nextMember.2 hn
    have := length_stringBody_lt hk
    have := length_colon_le hc
    have := length_passValue_lt hp
    have := ih h
    omega
  | case7 => cases h
  | case8 => cases h
  | case9 => cases h
  | case10 state first s s₁ hn key s₂ hk field hf hg s₃ hc update s₄ hp ih =>
    have := length_nextMember.2 hn
    have := length_stringBody_lt hk
    have := length_colon_le hc
    have := field.reader.shortens hp
    have := ih h
    omega

/-- Reads the elements of an array as the fields in their order, up to the end of the array or of
the fields.  What is left is behind the bracket, if that was reached. -/
def readElements {σ : Type} (fields : List (Field σ)) (state : σ) (first : Bool)
    (s : List UInt8) : Except ReadError (σ × Next) :=
  match fields with
  | [] => .ok (state, .open s)
  | field :: fields =>
    match nextElement first s with
    | .error e => .error e
    | .ok (.closed rest) => .ok (state, .closed rest)
    | .ok (.open s₁) =>
      match field.reader.run s₁ with
      | .error e => .error e
      | .ok (update, s₂) => readElements fields (update state) false s₂

/-- The bytes that are left, whether the end was reached or not. -/
def leftOver : Next → List UInt8
  | .closed rest => rest
  | .open rest => rest

theorem length_readElements_le {σ : Type} {fields : List (Field σ)} {state state' : σ}
    {first : Bool} {s : List UInt8} {next : Next}
    (h : readElements fields state first s = .ok (state', next)) :
    (leftOver next).length ≤ s.length := by
  induction fields generalizing state first s with
  | nil =>
    cases h
    exact Nat.le_refl _
  | cons field fields ih =>
    unfold readElements at h
    split at h
    · cases h
    next hn =>
      cases h
      exact Nat.le_of_lt (length_nextElement.1 hn)
    next hn =>
      split at h
      · cases h
      next hp =>
        have := length_nextElement.2 hn
        have := field.reader.shortens hp
        have := ih h
        omega

end Field

/-- Reads the bracket that ends an array. -/
def endArray : Next → Except ReadError (List UInt8)
  | .closed rest => .ok rest
  | .open s => keyword [Byte.closeBracket] (skipBlanks s)

theorem length_endArray_le {next : Next} {rest : List UInt8} (h : endArray next = .ok rest) :
    rest.length ≤ (Field.leftOver next).length := by
  unfold endArray at h
  split at h
  · cases h
    exact Nat.le_refl _
  · exact Nat.le_trans (length_keyword_le h) (length_skipBlanks_le _)

namespace RecordShape

variable {σ α : Type}

/-- The name of a field by its index. -/
def fieldName (shape : RecordShape σ α) (i : Nat) : String :=
  (shape.fields[i]?.map Field.name).getD ""

/-- What is missing of an object. -/
def missingMember (shape : RecordShape σ α) (i : Nat) : Mismatch :=
  .missingField (shape.fieldName i)

/-- What is missing of an array. -/
def missingElement (shape : RecordShape σ α) (i : Nat) : Mismatch :=
  .invalidLength i s!"{shape.name} with {shape.fields.length} elements"

/-- Reads the record from an object behind its brace. -/
def readObject (shape : RecordShape σ α) (s : List UInt8) : Except ReadError (α × List UInt8) :=
  match Field.readMembers shape.fields shape.start true s with
  | .error e => .error e
  | .ok (state, rest) =>
    match shape.finish state with
    | .error i => .error (.mismatch (shape.missingMember i))
    | .ok a => .ok (a, rest)

/-- Reads the record from an array behind its bracket. -/
def readArray (shape : RecordShape σ α) (s : List UInt8) : Except ReadError (α × List UInt8) :=
  match Field.readElements shape.fields shape.start true s with
  | .error e => .error e
  | .ok (state, next) =>
    match shape.finish state with
    | .error i => .error (.mismatch (shape.missingElement i))
    | .ok a =>
      match endArray next with
      | .error e => .error e
      | .ok rest => .ok (a, rest)

/-- Reads the record from its first byte on. -/
def readFrom (shape : RecordShape σ α) (b : UInt8) (s : List UInt8) :
    Except ReadError (α × List UInt8) :=
  if b = Byte.openBrace then shape.readObject s
  else if b = Byte.openBracket then shape.readArray s
  else .error (wrongKind shape.name b s)

theorem length_readFrom_le {shape : RecordShape σ α} {b : UInt8} {s rest : List UInt8} {a : α}
    (h : shape.readFrom b s = .ok (a, rest)) : rest.length ≤ s.length := by
  unfold readFrom at h
  split at h
  · unfold readObject at h
    split at h
    · cases h
    next hm =>
      split at h <;> cases h
      exact Nat.le_of_lt (Field.length_readMembers_lt hm)
  · split at h
    · unfold readArray at h
      split at h
      · cases h
      next hm =>
        split at h
        · cases h
        · split at h
          · cases h
          next he =>
            cases h
            exact Nat.le_trans (length_endArray_le he) (Field.length_readElements_le hm)
    · cases h

/-- Reads a record of the shape. -/
def reader (shape : RecordShape σ α) : Reader α :=
  Reader.byFirst shape.readFrom length_readFrom_le

end RecordShape

end ContractHost.Json
