import ContractHost.Wasm.Description
import ContractHost.Wasm.Instr

/-!
# Typing of bodies

A body is well typed if each instruction finds operands of its types, each block leaves the stack
as it found it, and the function ends with its results and nothing else on the stack.  Behind an
instruction that never goes on, missing operands are taken as given.
-/

namespace ContractHost.Wasm

/-- The types on the stack inside the innermost block, topmost first.  `unreached` says that the
place cannot be reached, so that there may be further operands of any types below. -/
structure Operands where
  types : List ValueType
  unreached : Bool
  deriving DecidableEq, Repr

namespace Operands

/-- No operands. -/
def none : Operands := ⟨[], false⟩

/-- Nothing goes on from here. -/
def stopped : Operands := ⟨[], true⟩

/-- One operand more. -/
def push (o : Operands) (t : ValueType) : Operands := { o with types := t :: o.types }

/-- Takes away an operand of the type. -/
def pop (o : Operands) (t : ValueType) : Option Operands :=
  match o.types with
  | t' :: ts => if t' = t then some { o with types := ts } else Option.none
  | [] => if o.unreached then some o else Option.none

/-- Takes away an operand of any type. -/
def popAny (o : Operands) : Option Operands :=
  match o.types with
  | _ :: ts => some { o with types := ts }
  | [] => if o.unreached then some o else Option.none

/-- Takes away operands of the types, of which the last is topmost. -/
def popAll (o : Operands) (ts : List ValueType) : Option Operands :=
  ts.reverse.foldlM pop o

/-- Puts operands of the types on the stack, the last topmost. -/
def pushAll (o : Operands) (ts : List ValueType) : Operands := ts.foldl push o

/-- Takes operands of some types and gives some of others. -/
def apply (o : Operands) (takes gives : List ValueType) : Option Operands :=
  (o.popAll takes).map (·.pushAll gives)

end Operands

/-- What is known where a body stands. -/
structure Scope where
  functions : List FunctionType
  hasMemory : Bool
  locals : List ValueType
  results : List ValueType

/-- The operands behind an instruction that uses the memory. -/
def Scope.onMemory (scope : Scope) (o : Operands) (takes gives : List ValueType) :
    Option Operands :=
  if scope.hasMemory then o.apply takes gives else none

mutual

/-- The operands behind an instruction that stands inside `depth` blocks. -/
def checkInstr (scope : Scope) (depth : Nat) (o : Operands) : Instr → Option Operands
  | .const _ => o.apply [] [.i32]
  | .binary _ => o.apply [.i32, .i32] [.i32]
  | .load | .loadByte => scope.onMemory o [.i32] [.i32]
  | .store | .storeByte => scope.onMemory o [.i32, .i32] []
  | .memorySize => scope.onMemory o [] [.i32]
  | .memoryGrow => scope.onMemory o [.i32] [.i32]
  | .localGet i => scope.locals[i]?.map o.push
  | .localSet i => scope.locals[i]?.bind o.pop
  | .localTee i => scope.locals[i]?.bind fun t => o.apply [t] [t]
  | .block body | .loop body => do
    let inner ← checkBody scope (depth + 1) Operands.none body
    if inner.types.isEmpty then some o else none
  | .branch whenTrue whenFalse => do
    let o ← o.pop .i32
    let first ← checkBody scope (depth + 1) Operands.none whenTrue
    let second ← checkBody scope (depth + 1) Operands.none whenFalse
    if first.types.isEmpty && second.types.isEmpty then some o else none
  | .br n =>
    if n < depth then some .stopped
    else if n = depth then (o.popAll scope.results).map fun _ => .stopped
    else none
  | .brIf n => do
    let o ← o.pop .i32
    if n < depth then some o
    else if n = depth then o.apply scope.results scope.results
    else none
  | .call i => scope.functions[i]?.bind fun t => o.apply t.params t.results
  | .ret => (o.popAll scope.results).map fun _ => .stopped
  | .drop => o.popAny
  | .nop => some o
  | .unreachable => some .stopped
  | .floatConst _ => o.apply [] [.f32]
  | .floatDiv => o.apply [.f32, .f32] [.f32]
  | .reinterpret => o.apply [.f32] [.i32]

/-- The operands behind a sequence of instructions that stands inside `depth` blocks. -/
def checkBody (scope : Scope) (depth : Nat) (o : Operands) : List Instr → Option Operands
  | [] => some o
  | i :: is => do
    let o ← checkInstr scope depth o i
    checkBody scope depth o is

end

/-- Whether a function's body is well typed. -/
def isWellTyped (scope : Scope) (body : List Instr) : Bool :=
  match (checkBody scope 0 Operands.none body).bind (·.popAll scope.results) with
  | some o => o.types.isEmpty
  | none => false

end ContractHost.Wasm
