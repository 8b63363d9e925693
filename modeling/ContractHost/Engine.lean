import ContractHost.EntryPoint

/-!
# Engines

What a host asks of the thing that executes guests: to make a module of a file, to say what the
module imports and exports, to make an instance of it with given host functions and a context, and
to call an exported function.  Linking is no part of it and is the same for every engine.

A call that fails leaves an instance behind as much as one that succeeds.
-/

namespace ContractHost

/-- An engine for files of type `Source`, with its own forms of modules and instances. -/
structure Engine (Source Module Instance : Type) where
  compile : Source → Except SandboxError Module
  compileFile : Option Source → Except SandboxError Module
  imports : Module → List ImportDecl
  declaredExports : Module → List ExportDecl
  instantiate : Module → List Binding → Context → Except SandboxError Instance
  call : Instance → String → Except SandboxError Unit × Instance
  context : Instance → Context
  setContext : Instance → Context → Instance
  memory : Instance → Memory
  setMemory : Instance → Memory → Instance

namespace Engine

variable {Source Module Instance : Type}

/-- Reads a file before its content is compiled; one that is not there is reported as such. -/
def compileRead (compile : Source → Except SandboxError Module) (file : Option Source) :
    Except SandboxError Module :=
  match file with
  | none => .error (.file "no such file")
  | some source => compile source

/-- The engine with files read before their content is compiled. -/
def withPlainFiles (e : Engine Source Module Instance) : Engine Source Module Instance :=
  { e with compileFile := compileRead e.compile }

/-- Moves the open log out of an instance. -/
def takeLog (e : Engine Source Module Instance) (i : Instance) : Log × Instance :=
  let context := e.context i
  (context.log, e.setContext i context.clearLog)

end Engine

end ContractHost
