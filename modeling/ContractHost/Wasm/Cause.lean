import ContractHost.SandboxError
import ContractHost.Wasm.Arithmetic

/-!
# Causes of a failure

An instantiation or a call that fails ends in an error of several layers: what went wrong, and
around it the place and what else there was to say.  `classify` sorts such an error by what it finds
in the layers.  The refusal of a host function comes before all else, and the want of fuel before
the other traps.
-/

namespace ContractHost.Wasm

/-- The traps of the engine: there is no fuel left, or the guest cannot go on. -/
inductive TrapCode where
  | outOfFuel
  | guest (t : Trap)
  deriving DecidableEq, Repr

/-- The text of the trap. -/
def TrapCode.message : TrapCode → String
  | outOfFuel => "wasm trap: all fuel consumed by WebAssembly"
  | guest t => t.message

/-- A layer of an error. -/
inductive Cause where
  | host (e : HostError)
  | trap (code : TrapCode)
  | backtrace (place : String)
  | note (text : String)
  deriving DecidableEq

namespace Cause

/-- The refusal of a host function. -/
def host? : Cause → Option HostError
  | host e => some e
  | _ => none

/-- The trap. -/
def trap? : Cause → Option TrapCode
  | trap code => some code
  | _ => none

/-- The place where the guest was. -/
def backtrace? : Cause → Option String
  | backtrace place => some place
  | _ => none

/-- The text of the layer. -/
def text : Cause → String
  | host e => e.message
  | trap code => code.message
  | backtrace place => place
  | note text => text

end Cause

/-- Sorts an error by its layers, the outermost first.  Without a trap the message is made of the
texts of all layers. -/
def classify (causes : List Cause) : SandboxError :=
  match causes.findSome? Cause.host? with
  | some e => .host e
  | none =>
    let code := causes.findSome? Cause.trap?
    if code = some .outOfFuel then .fuelExhausted
    else .trap
      { message := (code.map TrapCode.message).getD (": ".intercalate (causes.map Cause.text))
        backtrace := causes.findSome? Cause.backtrace? }

end ContractHost.Wasm
