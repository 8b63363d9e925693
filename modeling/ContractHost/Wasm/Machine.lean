import ContractHost.Import.Registry
import ContractHost.Wasm.Arithmetic
import ContractHost.Wasm.Module

/-!
# The machine

A machine runs one call of a guest.  It keeps the fuel that is left, the memory and the context of
the instance, the function that runs, and those that wait for it.  `Machine.step` does one
instruction; `Machine.run` goes on to the end, which comes because each step burns fuel or leaves
less code to run.

Fuel is burnt by instructions and by entering a function, and looked at only where a function or
the body of a loop begins: there a guest without fuel is stopped.
-/

namespace ContractHost.Wasm

/-! ## Programs -/

/-- What keeps the memory of an instance within its budget.  It is asked before the memory is made,
and again whenever it is to grow. -/
structure Limiter where
  memoryBytes : Nat
  deriving DecidableEq, Repr

/-- Whether the memory may come to so many bytes. -/
def Limiter.grants (l : Limiter) (bytes : Nat) : Bool := bytes ≤ l.memoryBytes

theorem Limiter.grants_iff {l : Limiter} {bytes : Nat} :
    l.grants bytes = true ↔ bytes ≤ l.memoryBytes := decide_eq_true_iff

/-- What the functions of an instance are: the bindings for its imports, then its own; and how far
its memory may grow, by what the module says and by the limiter. -/
structure Program where
  imports : Array Binding
  functions : Array Function
  declaredPages : Nat
  limiter : Limiter

/-- Whether the memory may come to so many pages. -/
def Program.mayGrow (p : Program) (pages : Nat) : Bool :=
  pages ≤ p.declaredPages && p.limiter.grants (pages * pageSize)

theorem Program.mayGrow_iff {p : Program} {pages : Nat} : p.mayGrow pages = true ↔
    pages ≤ p.declaredPages ∧ pages * pageSize ≤ p.limiter.memoryBytes := by
  rw [mayGrow, Bool.and_eq_true, decide_eq_true_iff, Limiter.grants_iff]

/-- A function by its index. -/
inductive Callee where
  | host (b : Binding)
  | guest (f : Function)

/-- The function of an index. -/
def Program.callee? (p : Program) (index : Nat) : Option Callee :=
  if index < p.imports.size then p.imports[index]?.map .host
  else p.functions[index - p.imports.size]?.map .guest

/-! ## States -/

/-- A block around the place that runs: what stands behind it, the operands below it, and for a
loop its body. -/
structure Label where
  after : List Instr
  stack : List UInt32
  again : Option (List Instr)

/-- A function that runs: the code to its next mark, the operands in the innermost block, the
blocks around, the local variables and the number of results. -/
structure Frame where
  code : List Instr
  stack : List UInt32
  labels : List Label
  locals : Array UInt32
  results : Nat

/-- A call of a guest on its way. -/
structure Machine where
  fuel : Nat
  memory : Memory
  context : Context
  frame : Frame
  callers : List Frame

/-- How a call ended. -/
inductive Stop where
  | finished
  | trapped (t : Trap)
  | refused (e : HostError)
  | fuelExhausted
  deriving DecidableEq

/-- What is left of a call that ended. -/
structure Halt where
  fuel : Nat
  memory : Memory
  context : Context
  stop : Stop

/-- A step: the call goes on, or it ended. -/
inductive Step where
  | next (m : Machine)
  | halt (h : Halt)

/-! ## Measures -/

/-- How much there is to run behind a block. -/
def Label.weight (l : Label) : Nat := bodyWeight l.after + 1

/-- How much there is to run behind blocks. -/
def labelsWeight : List Label → Nat
  | [] => 0
  | l :: ls => l.weight + labelsWeight ls

/-- How much there is to run in a function. -/
def Frame.weight (f : Frame) : Nat := bodyWeight f.code + labelsWeight f.labels + 1

/-- How much there is to run in functions. -/
def framesWeight : List Frame → Nat
  | [] => 0
  | f :: fs => f.weight + framesWeight fs

/-- How much there is to run, seen without repetition and calls. -/
def Machine.weight (m : Machine) : Nat := m.frame.weight + framesWeight m.callers

/-! ## The operand stack -/

/-- The topmost operand; a well-typed body never asks for one that is not there. -/
def top (stack : List UInt32) : UInt32 := stack.headD 0

/-- The arguments of a call, the first at the front, and the operands below them. -/
def takeArguments (n : Nat) (stack : List UInt32) : List UInt32 × List UInt32 :=
  (((stack.take n) ++ List.replicate (n - stack.length) 0).reverse, stack.drop n)

/-! ## Memory as the guest sees it -/

/-- The byte at an address. -/
def loadByte? (m : Memory) (address : UInt32) : Option UInt32 :=
  m.bytes[address.toNat]?.map UInt8.toUInt32

/-- The word at an address, its lowest byte first. -/
def load? (m : Memory) (address : UInt32) : Option UInt32 := do
  let a ← m.bytes[address.toNat]?
  let b ← m.bytes[address.toNat + 1]?
  let c ← m.bytes[address.toNat + 2]?
  let d ← m.bytes[address.toNat + 3]?
  some (a.toUInt32 ||| b.toUInt32 <<< 8 ||| c.toUInt32 <<< 16 ||| d.toUInt32 <<< 24)

/-- The memory with bytes at an address, if they fit. -/
def put? (m : Memory) (address : UInt32) (data : ByteArray) : Option Memory :=
  if address.toNat + data.size ≤ m.capacity then some (m.splice address.toNat data) else none

/-- The bytes of a word, the lowest first. -/
def wordBytes (w : UInt32) : ByteArray :=
  ⟨#[w.toUInt8, (w >>> 8).toUInt8, (w >>> 16).toUInt8, (w >>> 24).toUInt8]⟩

/-- The lowest byte of a word. -/
def lowByte (w : UInt32) : ByteArray := ⟨#[w.toUInt8]⟩

/-! ## Steps -/

namespace Machine

/-- The call ends here. -/
def halt (m : Machine) (s : Stop) : Step := .halt ⟨m.fuel, m.memory, m.context, s⟩

/-- The guest cannot go on. -/
def trap (m : Machine) (t : Trap) : Step := m.halt (.trapped t)

/-- Burns one unit of fuel, if any is left. -/
def burn (m : Machine) : Machine := { m with fuel := m.fuel - 1 }

/-- Goes on in the function that runs, with other code and other operands. -/
def proceed (m : Machine) (code : List Instr) (stack : List UInt32) : Step :=
  .next { m with frame := { m.frame with code := code, stack := stack } }

/-- Enters a block. -/
def enterBlock (m : Machine) (body after : List Instr) (stack : List UInt32) : Step :=
  .next { m with frame := { m.frame with
    code := body, stack := [], labels := ⟨after, stack, none⟩ :: m.frame.labels } }

/-- Starts the body of a loop, under its label. -/
def enterLoop (m : Machine) (body : List Instr) (label : Label) (outer : List Label) : Step :=
  if m.fuel = 0 then m.halt .fuelExhausted
  else .next { m with frame := { m.frame with
    code := body, stack := [], labels := label :: outer } }

/-- Goes on behind a block. -/
def leaveBlock (m : Machine) (label : Label) (outer : List Label) : Step :=
  .next { m with frame := { m.frame with
    code := label.after, stack := label.stack, labels := outer } }

/-- Ends the function that runs, and hands its results to the one that waits. -/
def leaveFunction (m : Machine) : Step :=
  match m.callers with
  | [] => m.halt .finished
  | caller :: callers =>
    .next { m with
      frame := { caller with stack := m.frame.stack.take m.frame.results ++ caller.stack }
      callers := callers }

/-- Branches to the label that stands at the depth; the outermost is the function itself. -/
def branchTo (m : Machine) (depth : Nat) : Step :=
  match m.frame.labels.drop depth with
  | [] => m.leaveFunction
  | label :: outer =>
    match label.again with
    | none => m.leaveBlock label outer
    | some body => m.enterLoop body label outer

/-- The frame of a function that starts. -/
def frameOf (f : Function) (arguments : List UInt32) : Frame :=
  ⟨f.body, [], [], (arguments ++ List.replicate f.locals 0).toArray, f.results⟩

/-- Enters a function of the guest; the function that runs waits with the given code and
operands. -/
def enterFunction (m : Machine) (f : Function) (arguments : List UInt32) (rest : List Instr)
    (stack : List UInt32) : Step :=
  if m.fuel = 0 then m.halt .fuelExhausted
  else .next { m.burn with
    frame := frameOf f arguments
    callers := { m.frame with code := rest, stack := stack } :: m.callers }

/-- The operands that a handler's answer puts on the stack, if it fills the declared results. -/
def resultsOf (results : Nat) (answer : Option Int32) : Option (List UInt32) :=
  match results, answer with
  | 0, _ => some []
  | 1, some value => some [value.toUInt32]
  | _, _ => none

/-- Calls a host function. -/
def callHost (m : Machine) (b : Binding) (rest : List Instr) : Step :=
  let (arguments, stack) := takeArguments b.signature.params m.frame.stack
  let reply := b.handler.run m.context m.memory (arguments.map UInt32.toInt32)
  let m' := { m with memory := reply.memory, context := reply.context }
  match reply.result with
  | .error e => m'.halt (.refused e)
  | .ok answer =>
    match resultsOf b.signature.results answer with
    | none => m'.trap .resultMissing
    | some results => m'.proceed rest (results ++ stack)

/-- Calls the function of an index. -/
def callIndex (p : Program) (m : Machine) (index : Nat) (rest : List Instr) : Step :=
  match p.callee? index with
  | none => m.trap .unreachable
  | some (.host b) => m.callHost b rest
  | some (.guest f) =>
    let (arguments, stack) := takeArguments f.params m.frame.stack
    m.enterFunction f arguments rest stack

/-- Grows the memory by a number of pages, or answers minus one. -/
def growMemory (p : Program) (m : Machine) (rest : List Instr) : Step :=
  let delta := (top m.frame.stack).toNat
  let below := m.frame.stack.tail
  if p.mayGrow (m.memory.pages + delta) then
    { m with memory := m.memory.grow (delta * pageSize) }.proceed rest
      (UInt32.ofNat m.memory.pages :: below)
  else m.proceed rest (minusOne :: below)

/-- Puts the word at an address on the stack. -/
def fetch (m : Machine) (rest : List Instr) (read : Memory → UInt32 → Option UInt32) : Step :=
  match read m.memory (top m.frame.stack) with
  | some w => m.proceed rest (w :: m.frame.stack.tail)
  | none => m.trap .outOfBounds

/-- Writes the topmost operand to the address below it. -/
def put (m : Machine) (rest : List Instr) (form : UInt32 → ByteArray) : Step :=
  let below := m.frame.stack.tail
  let data := form (top m.frame.stack)
  let start := (top below).toNat
  if start + data.size ≤ m.memory.capacity then
    { m with memory := m.memory.splice start data }.proceed rest below.tail
  else m.trap .outOfBounds

/-- Drops the topmost operand. -/
def popOperand (m : Machine) : Machine :=
  { m with frame := { m.frame with stack := m.frame.stack.tail } }

/-- Does an instruction; `rest` is the code behind it. -/
def exec (p : Program) (m : Machine) (rest : List Instr) : Instr → Step
  | .const w => m.burn.proceed rest (w :: m.frame.stack)
  | .binary op =>
    let below := m.frame.stack.tail
    match op.apply (top below) (top m.frame.stack) with
    | .ok w => m.burn.proceed rest (w :: below.tail)
    | .error t => m.burn.trap t
  | .load => m.burn.fetch rest load?
  | .loadByte => m.burn.fetch rest loadByte?
  | .store => m.burn.put rest wordBytes
  | .storeByte => m.burn.put rest lowByte
  | .memorySize => m.burn.proceed rest (UInt32.ofNat m.memory.pages :: m.frame.stack)
  | .memoryGrow => m.burn.growMemory p rest
  | .localGet i => m.burn.proceed rest (m.frame.locals.getD i 0 :: m.frame.stack)
  | .localSet i =>
    .next { m.burn with frame := { m.frame with
      code := rest, stack := m.frame.stack.tail,
      locals := m.frame.locals.setIfInBounds i (top m.frame.stack) } }
  | .localTee i =>
    .next { m.burn with frame := { m.frame with
      code := rest, locals := m.frame.locals.setIfInBounds i (top m.frame.stack) } }
  | .block body => m.enterBlock body rest m.frame.stack
  | .loop body => m.enterLoop body ⟨rest, m.frame.stack, some body⟩ m.frame.labels
  | .branch whenTrue whenFalse =>
    m.burn.enterBlock (if top m.frame.stack ≠ 0 then whenTrue else whenFalse) rest
      m.frame.stack.tail
  | .br n => m.burn.branchTo n
  | .brIf n =>
    if top m.frame.stack ≠ 0 then
      m.burn.popOperand.branchTo n
    else m.burn.proceed rest m.frame.stack.tail
  | .call i => m.burn.callIndex p i rest
  | .ret => m.leaveFunction
  | .drop => m.proceed rest m.frame.stack.tail
  | .nop => m.proceed rest m.frame.stack
  | .unreachable => m.trap .unreachable
  | .floatConst w => m.burn.proceed rest (w :: m.frame.stack)
  | .floatDiv =>
    let below := m.frame.stack.tail
    m.burn.proceed rest (floatQuotient (top below) (top m.frame.stack) :: below.tail)
  | .reinterpret => m.burn.proceed rest m.frame.stack

/-- One step: an instruction, or the end of a block or function. -/
def step (p : Program) (m : Machine) : Step :=
  match m.frame.code with
  | i :: rest => exec p m rest i
  | [] =>
    match m.frame.labels with
    | label :: outer => m.leaveBlock label outer
    | [] => m.leaveFunction

end Machine

end ContractHost.Wasm
