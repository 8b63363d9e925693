/-!
# Instructions

The instructions of a guest, with blocks, loops and branches of a condition nested as trees.  All
values are words of 32 bits; a floating-point number is the word of its bits.

This is a part of WebAssembly only: there are no globals, no tables and no values of 64 bits.  What
is said of all guests is said of the modules that can be written with these instructions.
-/

namespace ContractHost.Wasm

/-- An operation on the two topmost words. -/
inductive Binary where
  | add
  | sub
  | divS
  | divU
  | remS
  | remU
  | eq
  | ne
  | gtU
  | ltU
  deriving DecidableEq, Repr

/-- An instruction. -/
inductive Instr where
  | const (word : UInt32)
  | binary (op : Binary)
  | load
  | loadByte
  | store
  | storeByte
  | memorySize
  | memoryGrow
  | localGet (index : Nat)
  | localSet (index : Nat)
  | localTee (index : Nat)
  | block (body : List Instr)
  | loop (body : List Instr)
  | branch (whenTrue whenFalse : List Instr)
  | br (depth : Nat)
  | brIf (depth : Nat)
  | call (index : Nat)
  | ret
  | drop
  | nop
  | unreachable
  | floatConst (word : UInt32)
  | floatDiv
  | reinterpret
  deriving Inhabited

mutual

/-- How much there is to run in an instruction, seen without repetition. -/
def Instr.weight : Instr → Nat
  | .block body => bodyWeight body + 2
  | .loop body => bodyWeight body + 2
  | .branch whenTrue whenFalse => bodyWeight whenTrue + bodyWeight whenFalse + 2
  | _ => 1

/-- How much there is to run in a sequence of instructions, seen without repetition. -/
def bodyWeight : List Instr → Nat
  | [] => 0
  | i :: is => i.weight + bodyWeight is

end

theorem Instr.weight_pos (i : Instr) : 0 < i.weight := by
  cases i <;> simp [Instr.weight]

end ContractHost.Wasm
