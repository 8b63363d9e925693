import ContractHost.Json.Value

/-!
# Taking values apart

The parts of a value that a reader of some document expects, as options: a member by its name, a
text, a truth value, a number that may also be written as a text of digits, and a byte string,
which is written in hexadecimal digits, as text, or as a number of equal bytes.
-/

namespace ContractHost.Json.Value

/-- The member of an object by its name; `null` counts as none. -/
def get? (v : Value) (name : String) : Option Value :=
  match v with
  | object ms =>
    match member? ms name with
    | some null => none
    | found => found
  | _ => none

/-- The text that a value is. -/
def text? : Value → Option String
  | string s => some s
  | _ => none

/-- The elements of an array. -/
def array? : Value → Option (List Value)
  | array vs => some vs
  | _ => none

/-- The integer that a value is. -/
def integer? : Value → Option Int
  | number (.integer z) => some z
  | string s => s.toInt?
  | _ => none

/-- The natural number that a value is. -/
def natural? (v : Value) : Option Nat :=
  v.integer?.bind fun z => if 0 ≤ z then some z.toNat else none

/-- Whether the member of the name is there and is `true`. -/
def flag (v : Value) (name : String) : Bool :=
  match v.get? name with
  | some (boolean b) => b
  | _ => false

/-- The elements of a member, each taken apart by `f`; a member that is not there has none. -/
def listOf? {α : Type} (v : Value) (name : String) (f : Value → Option α) : Option (List α) :=
  match v.get? name with
  | none => some []
  | some member => member.array?.bind (·.mapM f)

/-- The value of a hexadecimal digit. -/
def hexValue? (c : Char) : Option UInt8 :=
  (hexDigit? c.toUInt8).map UInt8.ofNat

/-- The bytes that pairs of hexadecimal digits stand for. -/
def hexBytes? : List Char → Option (List UInt8)
  | [] => some []
  | a :: b :: cs => do
    let a ← hexValue? a
    let b ← hexValue? b
    let rest ← hexBytes? cs
    some ((a * 16 + b) :: rest)
  | _ => none

/-- The byte string that an object describes. -/
def bytes? (v : Value) : Option ByteArray :=
  match v.get? "hex", v.get? "text", v.get? "fill" with
  | some hex, _, _ => do
    let digits ← hex.text?
    let bytes ← hexBytes? digits.toList
    some ⟨bytes.toArray⟩
  | none, some text, _ => text.text?.map String.toUTF8
  | none, none, some byte => do
    let byte ← byte.natural?
    let length ← (v.get? "len").bind natural?
    some ⟨Array.replicate length (UInt8.ofNat byte)⟩
  | none, none, none => none

end ContractHost.Json.Value
