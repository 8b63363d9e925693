import ContractHost.Import.Signature

/-!
# Types of WebAssembly

Value types, function types and extents (a least and perhaps a greatest size), and how a host that
only knows functions over 32-bit integers describes the type of an import or export.
-/

namespace ContractHost.Wasm

/-- The type of a value. -/
inductive ValueType where
  | i32
  | i64
  | f32
  | f64
  | v128
  | funcref
  | externref
  deriving DecidableEq, Repr

/-- The type of a value as text. -/
def ValueType.text : ValueType → String
  | i32 => "i32"
  | i64 => "i64"
  | f32 => "f32"
  | f64 => "f64"
  | v128 => "v128"
  | funcref => "(ref null func)"
  | externref => "(ref null extern)"

/-- The type of a function. -/
structure FunctionType where
  params : List ValueType
  results : List ValueType
  deriving DecidableEq, Repr

namespace FunctionType

/-- Whether only 32-bit integers go in and come out. -/
def isPlain (t : FunctionType) : Bool := (t.params ++ t.results).all (· == .i32)

/-- The type as text. -/
def text (t : FunctionType) : String :=
  s!"func ({listed t.params}) -> ({listed t.results})"
where
  /-- Types separated by commas. -/
  listed (ts : List ValueType) : String := ", ".intercalate (ts.map ValueType.text)

/-- What a host knows of a function of the type. -/
def declared (t : FunctionType) : DeclaredType :=
  if t.isPlain then .function ⟨t.params.length, t.results.length⟩ else .unsupported t.text

end FunctionType

/-- The least size of a memory or table, and the greatest if there is one. -/
structure Extent where
  least : Nat
  greatest : Option Nat
  deriving DecidableEq, Repr

/-- The least size does not exceed the greatest. -/
def Extent.isOrdered (e : Extent) : Bool := e.greatest.all (e.least ≤ ·)

end ContractHost.Wasm
