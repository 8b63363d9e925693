/-!
# Types of imports and exports

Imported functions take and give only integers of 32 bits, so a signature is two counts.  Whatever
else a module declares (another kind of item, a function over other types) is kept by its
description.
-/

namespace ContractHost

/-- The number of parameters and of results of a function over 32-bit integers. -/
structure Signature where
  params : Nat
  results : Nat
  deriving DecidableEq, Repr

/-- The signature as text, such as `(i32, i32) -> (i32)`. -/
def Signature.text (s : Signature) : String :=
  s!"({listed s.params}) -> ({listed s.results})"
where
  /-- So many parameter types, separated by commas. -/
  listed (n : Nat) : String := ", ".intercalate (List.replicate n "i32")

/-- What a module says of an item that it imports or exports. -/
inductive DeclaredType where
  | function (signature : Signature)
  | unsupported (description : String)
  deriving DecidableEq, Repr

/-- The type as text. -/
def DeclaredType.text : DeclaredType → String
  | function s => s.text
  | unsupported d => d

/-- An item that a module asks of its host. -/
structure ImportDecl where
  space : String
  name : String
  type : DeclaredType
  deriving DecidableEq, Repr

/-- An item that a module offers. -/
structure ExportDecl where
  name : String
  type : DeclaredType
  deriving DecidableEq, Repr

end ContractHost
