import ContractHost.Engine

/-!
# Drivers

A driver takes one module through its life: `load`, `link`, `instantiate`, and then any number of
calls of entry points.  Every operation gives an answer and the driver that is left, also when it
fails.  After a failed call the driver stays faulted.

Each call has a log of its own: what the instance had recorded before is dropped, and after a call
that succeeds its records are handed out.  The records of a failed call stay with the instance.
-/

namespace ContractHost

/-- A driver: its engine, the host functions it offers, its settings, and what it has come to hold
of one module. -/
structure Driver (Source Module Instance : Type) where
  engine : Engine Source Module Instance
  registry : Registry
  config : Config
  state : DriverState
  module : Option Module
  declared : List ExportDecl
  linked : List Binding
  reason : Option ByteArray
  guest : Option Instance

namespace Driver

variable {Source Module Instance : Type}

/-- A driver without a module. -/
def new (engine : Engine Source Module Instance) (registry : Registry) (config : Config) :
    Driver Source Module Instance :=
  ⟨engine, registry, config, .unloaded, none, [], [], none, none⟩

/-- The error of an operation in a state that does not allow it. -/
def refusal (d : Driver Source Module Instance) (operation : Operation) : SandboxError :=
  if d.state = .faulted then .instanceFaulted else .invalidState operation d.state

/-- The driver in another state, with all that it holds. -/
def transition (d : Driver Source Module Instance) (state : DriverState) :
    Driver Source Module Instance :=
  { d with state := state }

/-! ## Loading and linking -/

/-- Keeps a module that was compiled. -/
def accept (d : Driver Source Module Instance) (m : Module) : Driver Source Module Instance :=
  { d with declared := d.engine.declaredExports m, module := some m }.transition .loaded

/-- Takes a compiled module, if none was loaded before. -/
def loadWith (d : Driver Source Module Instance) (compiled : Unit → Except SandboxError Module) :
    Except SandboxError Unit × Driver Source Module Instance :=
  if d.state = .unloaded then
    match compiled () with
    | .error e => (.error e, d)
    | .ok m => (.ok (), d.accept m)
  else (.error (d.refusal .load), d)

/-- Loads a module from its content. -/
def load (d : Driver Source Module Instance) (source : Source) :
    Except SandboxError Unit × Driver Source Module Instance :=
  d.loadWith fun _ => d.engine.compile source

/-- Loads a module from a file, which need not be there. -/
def loadFile (d : Driver Source Module Instance) (file : Option Source) :
    Except SandboxError Unit × Driver Source Module Instance :=
  d.loadWith fun _ => d.engine.compileFile file

/-- Finds host functions for all imports of the module. -/
def link (d : Driver Source Module Instance) :
    Except SandboxError Unit × Driver Source Module Instance :=
  if d.state = .loaded then
    match d.module with
    | none => (.error (.invalidState .link d.state), d)
    | some m =>
      match d.registry.link (d.engine.imports m) with
      | .error e => (.error (.link e), d)
      | .ok bindings => (.ok (), { d with linked := bindings }.transition .linked)
  else (.error (d.refusal .link), d)

/-! ## Instantiating -/

/-- Makes a new instance for the reason that is bound.  The driver is instantiated with it, and at
once ready. -/
def spawn (d : Driver Source Module Instance) :
    Except SandboxError Unit × Driver Source Module Instance :=
  match d.module, d.reason with
  | some m, some reason =>
    match d.engine.instantiate m d.linked (.new reason d.config.logLimits) with
    | .error e => (.error e, d)
    | .ok i =>
      (.ok (), ({ d with guest := some i }.transition .instantiated).transition .ready)
  | _, _ => (.error (.invalidState .instantiate d.state), d)

/-- Binds a reason and makes an instance for it.  The reason stays bound if no instance can be
made. -/
def instantiate (d : Driver Source Module Instance) (payload : Payload) :
    Except SandboxError Unit × Driver Source Module Instance :=
  if d.state = .linked ∨ d.state = .ready then
    match payload.encode with
    | .error e => (.error (.encoding e), d)
    | .ok reason => { d with reason := some reason }.spawn
  else (.error (d.refusal .instantiate), d)

/-! ## Calling -/

/-- Calls an entry point of an instance in a log of its own.  The driver is running from the opening
of the log until the call ends. -/
def callIn (d : Driver Source Module Instance) (i : Instance) (entry : String) :
    Except SandboxError Log × Driver Source Module Instance :=
  let opened := (d.engine.takeLog i).2
  let running := { d with guest := some opened, state := .running }
  match running.engine.call opened entry with
  | (.ok (), i') =>
    let (log, i'') := running.engine.takeLog i'
    (.ok log, { running with guest := some i'', state := .ready })
  | (.error e, i') => (.error e, { running with guest := some i', state := .faulted })

/-- Calls an entry point and gives the records of the call. -/
def invoke (d : Driver Source Module Instance) (entry : String) :
    Except SandboxError Log × Driver Source Module Instance :=
  if d.state = .ready then
    match checkEntryPoint d.declared entry with
    | .error e => (.error e, { d with state := .faulted })
    | .ok () =>
      match d.guest with
      | none => (.error (.invalidState .invoke d.state), d)
      | some i => d.callIn i entry
  else (.error (d.refusal .invoke), d)

/-- Calls an entry point as one iteration of several: on a new instance, if the settings ask for
one. -/
def iterate (d : Driver Source Module Instance) (entry : String) :
    Except SandboxError Log × Driver Source Module Instance :=
  if d.config.instancePolicy = .fresh ∧ d.state = .ready then
    match d.spawn with
    | (.error e, d') => (.error e, d')
    | (.ok (), d') => d'.invoke entry
  else d.invoke entry

/-- What a repeated run comes to: the answer of the sink, the number of records handed to it, taken
to stay below `2 ^ 64`, and the driver that is left; and the error of the iteration that failed, if
one did. -/
structure Run (Source Module Instance σ : Type) where
  result : Except SandboxError Unit
  sink : σ
  records : Nat
  driver : Driver Source Module Instance

/-- Calls an entry point a number of times, and hands the log of each iteration to a sink.  The
first iteration that fails is the last. -/
def runWith {σ : Type} (sink : σ → Log → σ) (entry : String) :
    Nat → σ → Nat → Driver Source Module Instance → Run Source Module Instance σ
  | 0, s, records, d => ⟨.ok (), s, records, d⟩
  | n + 1, s, records, d =>
    match d.iterate entry with
    | (.error e, d') => ⟨.error e, s, records, d'⟩
    | (.ok log, d') => runWith sink entry n (sink s log) (records + log.length) d'

/-- Calls an entry point a number of times, and hands the log of each iteration to a sink. -/
def runRepeatedWith {σ : Type} (d : Driver Source Module Instance) (entry : String)
    (iterations : UInt64) (sink : σ → Log → σ) (start : σ) : Run Source Module Instance σ :=
  runWith sink entry iterations.toNat start 0 d

/-- The report of a repeated run: all records that fit in one log, and how many did not, taken to
stay below `2 ^ 64`. -/
structure RunReport where
  iterations : UInt64
  dropped : Nat
  log : Log
  deriving DecidableEq

/-- Adds the log of an iteration to a report, as far as it fits. -/
def RunReport.add (limits : LogLimits) (r : RunReport) (log : Log) : RunReport :=
  let (kept, dropped) := r.log.appendWithin log limits
  { r with log := kept, dropped := r.dropped + dropped }

/-- Calls an entry point a number of times, and reports the records of all iterations. -/
def runRepeated (d : Driver Source Module Instance) (entry : String) (iterations : UInt64) :
    Except SandboxError RunReport × Driver Source Module Instance :=
  let run := d.runRepeatedWith entry iterations (RunReport.add d.config.runLogLimits)
    ⟨iterations, 0, .empty⟩
  match run.result with
  | .error e => (.error e, run.driver)
  | .ok () => (.ok run.sink, run.driver)

/-! ## Looking inside -/

/-- The open log of the instance, if there is one. -/
def currentLog (d : Driver Source Module Instance) : Option Log :=
  d.guest.map fun i => (d.engine.context i).log

/-- The memory of the instance. -/
def memory (d : Driver Source Module Instance) : Except SandboxError Memory :=
  match d.guest with
  | some i => .ok (d.engine.memory i)
  | none => .error (.invalidState .readMemory d.state)

/-- Writes to the memory of the instance; a range that is not inside is an error of its own. -/
def writeMemory (d : Driver Source Module Instance) (offset : Int32) (data : ByteArray) :
    Except SandboxError (Except BoundsError Unit) × Driver Source Module Instance :=
  match d.guest with
  | none => (.error (.invalidState .readMemory d.state), d)
  | some i =>
    match (d.engine.memory i).write offset data with
    | .error e => (.ok (.error e), d)
    | .ok m => (.ok (.ok ()), { d with guest := some (d.engine.setMemory i m) })

end Driver

end ContractHost
