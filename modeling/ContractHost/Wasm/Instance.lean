import ContractHost.Engine
import ContractHost.Wasm.Cause
import ContractHost.Wasm.Run

/-!
# Instances

A module becomes an instance in steps of which each can fail: the host functions are defined, no
two under one name; every import finds its function; the memory is made, if its least size is
allowed; the data are put into it; the start function runs.  After that every call starts with full
fuel, on the memory and the context that the call before left.
-/

namespace ContractHost.Wasm

/-- What an instance may use: the fuel of one call and the size of its memory. -/
structure Budget where
  fuel : Nat
  memoryBytes : Nat
  deriving DecidableEq, Repr

/-- The budget that a configuration allows. -/
def Budget.ofConfig (c : Config) : Budget := ⟨c.fuelLimit.toNat, c.maxMemoryBytes⟩

/-- The limiter of an instance with the budget. -/
def Budget.limiter (b : Budget) : Limiter := ⟨b.memoryBytes⟩

/-- A module with its functions, a memory, a context and what is left of its fuel. -/
structure Instance where
  module : Module
  program : Program
  budget : Budget
  fuel : Nat
  memory : Memory
  context : Context

namespace Stop

/-- The layers of the error in which a call ends, without the place.  A result that is missing is an
error of the engine, and not one of its traps. -/
def causes : Stop → List Cause
  | finished => []
  | trapped .resultMissing => [.note Trap.resultMissing.message]
  | trapped t => [.trap (.guest t)]
  | refused e => [.host e]
  | fuelExhausted => [.trap .outOfFuel]

/-- The error that stands for the end of a call; a call that finished has none. -/
def error? : Stop → Option SandboxError
  | finished => none
  | stop => some (classify stop.causes)

@[simp] theorem error?_finished : finished.error? = none := rfl

@[simp] theorem error?_trapped (t : Trap) :
    (trapped t).error? = some (.trapped t.message) := by
  cases t <;> rfl

@[simp] theorem error?_refused (e : HostError) : (refused e).error? = some (.host e) := rfl

@[simp] theorem error?_fuelExhausted : fuelExhausted.error? = some .fuelExhausted := rfl

end Stop

namespace Program

/-- A machine that is about to run a function of the guest from outside. -/
def machine (f : Function) (fuel : Nat) (memory : Memory) (context : Context) : Machine :=
  ⟨fuel - 1, memory, context, Machine.frameOf f [], []⟩

/-- Runs a function of the guest from outside, without arguments. -/
def runGuest (p : Program) (f : Function) (fuel : Nat) (memory : Memory) (context : Context) :
    Halt :=
  if fuel = 0 then ⟨fuel, memory, context, .fuelExhausted⟩
  else (machine f fuel memory context).run p

/-- Calls a host function from outside, without arguments.  It sees the memory given, and what it
leaves of it is kept. -/
def runHost (b : Binding) (fuel : Nat) (memory : Memory) (context : Context) : Halt :=
  let reply := b.handler.run context memory []
  let stop := match reply.result with
    | .error e => Stop.refused e
    | .ok answer =>
      match Machine.resultsOf b.signature.results answer with
      | none => .trapped .resultMissing
      | some _ => .finished
  ⟨fuel, reply.memory, reply.context, stop⟩

/-- Runs the start function, which sees the memory of the instance whatever it is. -/
def runStart (p : Program) (index fuel : Nat) (memory : Memory) (context : Context) : Halt :=
  match p.callee? index with
  | none => ⟨fuel, memory, context, .finished⟩
  | some (.host b) => runHost b fuel memory context
  | some (.guest f) => p.runGuest f fuel memory context

/-- Runs an exported function.  A host function that is called without a guest in between sees no
memory. -/
def runExport (p : Program) (index fuel : Nat) (memory : Memory) (context : Context) : Halt :=
  match p.callee? index with
  | none => ⟨fuel, memory, context, .finished⟩
  | some (.host b) => { runHost b fuel .empty context with memory := memory }
  | some (.guest f) => p.runGuest f fuel memory context

end Program

namespace Instance

/-! ## Making an instance -/

/-- The first binding whose name occurs earlier in the list. -/
def definedTwice? : List (String × String) → List Binding → Option Binding
  | _, [] => none
  | seen, b :: bs => if seen.contains b.key then some b else definedTwice? (b.key :: seen) bs

/-- The host function for an import, which must be a function of the same signature. -/
def bindingFor (bindings : List Binding) (i : ImportDecl) : Except SandboxError Binding :=
  match bindings.find? (·.key == (i.space, i.name)) with
  | none =>
    .error (classify [.note ("unknown import: `" ++ i.space ++ "::" ++ i.name ++
      "` has not been defined")])
  | some b =>
    if i.type = .function b.signature then .ok b
    else .error (classify [.note ("incompatible import type for `" ++ i.space ++ "::" ++ i.name ++
      "`")])

/-- Defines the host functions and finds one for every import. -/
def resolveImports (m : Module) (bindings : List Binding) : Except SandboxError (List Binding) :=
  match definedTwice? [] bindings with
  | some b =>
    .error (.engine ("map entry `" ++ b.space ++ "::" ++ b.name ++ "` defined twice"))
  | none => m.imports.mapM (bindingFor bindings)

/-- The extent of the module's memory. -/
def memoryExtent (m : Module) : Extent := m.description.allMemories.headD ⟨0, none⟩

/-- How far the module lets its memory grow. -/
def declaredPages (m : Module) : Nat := (memoryExtent m).greatest.getD addressablePages

/-- A memory of the least size, if the limiter grants it. -/
def newMemory (m : Module) (budget : Budget) : Except SandboxError Memory :=
  let pages := (memoryExtent m).least
  if budget.limiter.grants (pages * pageSize) then .ok (.zeros (pages * pageSize))
  else .error (classify [.note s!"memory minimum size of {pages} pages exceeds memory limits"])

theorem newMemory_of_le {m : Module} {budget : Budget}
    (h : (memoryExtent m).least * pageSize ≤ budget.memoryBytes) :
    newMemory m budget = .ok (.zeros ((memoryExtent m).least * pageSize)) :=
  if_pos (Limiter.grants_iff.2 h)

theorem newMemory_of_not_le {m : Module} {budget : Budget}
    (h : ¬(memoryExtent m).least * pageSize ≤ budget.memoryBytes) :
    ∃ e, newMemory m budget = .error e :=
  ⟨_, if_neg fun hgrants => h (Limiter.grants_iff.1 hgrants)⟩

/-- Puts the data into a memory, in order. -/
def fill : List DataSegment → Memory → Except SandboxError Memory
  | [], memory => .ok memory
  | d :: ds, memory =>
    match put? memory d.offset d.bytes with
    | some memory' => fill ds memory'
    | none => .error (classify [.trap (.guest .outOfBounds)])

/-- What the module's functions are, with the host functions for its imports. -/
def programOf (m : Module) (budget : Budget) (imports : List Binding) : Program :=
  ⟨imports.toArray, m.functions, declaredPages m, budget.limiter⟩

/-- The instance before its start function runs. -/
def prepare (budget : Budget) (m : Module) (bindings : List Binding) (context : Context) :
    Except SandboxError Instance := do
  let imports ← resolveImports m bindings
  let memory ← newMemory m budget
  let memory ← fill m.description.data memory
  .ok ⟨m, programOf m budget imports, budget, budget.fuel, memory, context⟩

/-- Keeps what a call left behind. -/
def absorb (i : Instance) (h : Halt) : Instance :=
  { i with fuel := h.fuel, memory := h.memory, context := h.context }

/-- Runs the start function, if there is one. -/
def start (i : Instance) : Except SandboxError Instance :=
  match i.module.description.start with
  | none => .ok i
  | some index =>
    let h := i.program.runStart index i.fuel i.memory i.context
    match h.stop.error? with
    | some e => .error e
    | none => .ok (i.absorb h)

/-- A new instance of a module, with the host functions given and the context. -/
def new (budget : Budget) (m : Module) (bindings : List Binding) (context : Context) :
    Except SandboxError Instance := do
  let i ← prepare budget m bindings context
  let i ← i.start
  if m.exportsMemory then .ok i
  else .error (.memory s!"no '{memoryExportName}' export")

/-! ## Calls -/

/-- The type of a function as a host sees it. -/
def functionType (m : Module) (index : Nat) : DeclaredType :=
  match m.description.functionTypes[index]? with
  | some t => t.declared
  | none => .unsupported ""

/-- Calls an exported function with full fuel. -/
def call (i : Instance) (name : String) : Except SandboxError Unit × Instance :=
  let i := { i with fuel := i.budget.fuel }
  match i.module.exportedFunction? name with
  | none => (.error (.exportNotFound name), i)
  | some index =>
    let type := functionType i.module index
    if type = .function entrySignature then
      let h := i.program.runExport index i.fuel i.memory i.context
      (match h.stop.error? with | some e => .error e | none => .ok (), i.absorb h)
    else (.error (.entryPointSignature name type.text), i)

end Instance

/-- The engine that runs modules within a budget. -/
def engine (budget : Budget) : Engine Source Module Instance where
  compile := Module.ofSource
  compileFile file :=
    match file with
    | none => .error (.engine "failed to read the file")
    | some source => Module.ofSource source
  imports := Module.imports
  declaredExports := Module.exports
  instantiate := Instance.new budget
  call := Instance.call
  context := Instance.context
  setContext i c := { i with context := c }
  memory := Instance.memory
  setMemory i m := { i with memory := m }

/-- The engine for a configuration, if that can be used. -/
def engineFor (c : Config) : Except ConfigError (Engine Source Module Instance) :=
  c.validate.map fun c => engine (Budget.ofConfig c)

end ContractHost.Wasm
