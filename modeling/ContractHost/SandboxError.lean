import ContractHost.Config
import ContractHost.Driver.State
import ContractHost.Import.Registry
import ContractHost.Reason.Payload

/-!
# Errors of the host

Whatever can go wrong between loading a module and the end of a call, by its cause.  The text names
the kind of error first, unless the error is of the driver's own making.
-/

namespace ContractHost

/-- Why the guest stopped, and where if that is known. -/
structure TrapError where
  message : String
  backtrace : Option String
  deriving DecidableEq, Repr

/-- The text of the error: the place, if known, is on lines of its own. -/
def TrapError.text (t : TrapError) : String :=
  match t.backtrace with
  | none => t.message
  | some place => t.message ++ "\n" ++ place

/-- What went wrong. -/
inductive SandboxError where
  | engine (description : String)
  | file (description : String)
  | config (description : String)
  | validation (description : String)
  | encoding (e : EncodingError)
  | link (e : LinkError)
  | exportNotFound (name : String)
  | entryPointSignature (name found : String)
  | host (e : HostError)
  | fuelExhausted
  | trap (t : TrapError)
  | memory (description : String)
  | invalidState (operation : Operation) (state : DriverState)
  | instanceFaulted

namespace SandboxError

/-- The text of the error. -/
def message : SandboxError → String
  | engine d => s!"wasmtime error: {d}"
  | file d => s!"io error: {d}"
  | config d => s!"config error: {d}"
  | validation d => s!"validation error: {d}"
  | encoding e => s!"encoding error: {e.message}"
  | link e => s!"link error: {e.message}"
  | exportNotFound name => s!"export not found: {name}"
  | entryPointSignature name found =>
    s!"entry point '{name}' has signature {found}, expected () -> ()"
  | host e => s!"host error: {e.message}"
  | fuelExhausted => "fuel exhausted (instruction limit)"
  | trap t => s!"guest trapped: {t.text}"
  | memory d => s!"memory error: {d}"
  | invalidState operation state => s!"cannot {operation.text} while {state.text}"
  | instanceFaulted => "instance faulted; create a new driver to continue"

/-- A trap of which only the message is known. -/
def trapped (message : String) : SandboxError := trap ⟨message, none⟩

/-- The error of a configuration, as an error of the host. -/
def ofConfig : ConfigError → SandboxError
  | .unreadable => file ConfigError.unreadable.message
  | e => config e.message

end SandboxError

end ContractHost
