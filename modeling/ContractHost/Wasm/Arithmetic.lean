import ContractHost.Wasm.Instr

/-!
# Arithmetic on words

The operations on two words, as WebAssembly defines them: sums and differences wrap, division
rounds toward zero, and what has no answer is a trap.  A floating-point result that is no number is
always the same word.
-/

namespace ContractHost.Wasm

/-- Why a guest cannot go on. -/
inductive Trap where
  | unreachable
  | divisionByZero
  | overflow
  | outOfBounds
  | resultMissing
  deriving DecidableEq, Repr

/-- The text of the trap. -/
def Trap.message : Trap → String
  | unreachable => "wasm trap: wasm `unreachable` instruction executed"
  | divisionByZero => "wasm trap: integer divide by zero"
  | overflow => "wasm trap: integer overflow"
  | outOfBounds => "wasm trap: out of bounds memory access"
  | resultMissing => "expected i32, found (ref null nofunc)"

/-- A condition as a word. -/
def truth (b : Bool) : UInt32 := if b then 1 else 0

/-- The least signed word. -/
def leastSigned : UInt32 := 0x80000000

/-- The word of minus one, which is also the greatest unsigned word. -/
def minusOne : UInt32 := 0xffffffff

/-- The result of an operation, of which `y` was topmost on the stack. -/
def Binary.apply (op : Binary) (x y : UInt32) : Except Trap UInt32 :=
  match op with
  | add => .ok (x + y)
  | sub => .ok (x - y)
  | divS =>
    if y = 0 then .error .divisionByZero
    else if x = leastSigned ∧ y = minusOne then .error .overflow
    else .ok (x.toInt32 / y.toInt32).toUInt32
  | divU => if y = 0 then .error .divisionByZero else .ok (x / y)
  | remS => if y = 0 then .error .divisionByZero else .ok (x.toInt32 % y.toInt32).toUInt32
  | remU => if y = 0 then .error .divisionByZero else .ok (x % y)
  | eq => .ok (truth (x = y))
  | ne => .ok (truth (x ≠ y))
  | gtU => .ok (truth (y < x))
  | ltU => .ok (truth (x < y))

/-- The word of every floating-point result that is no number. -/
def notANumber : UInt32 := 0x7fc00000

/-- The quotient of two floating-point numbers, by their bits. -/
def floatQuotient (x y : UInt32) : UInt32 :=
  let q := Float32.ofBits x / Float32.ofBits y
  if q.isNaN then notANumber else q.toBits

end ContractHost.Wasm
