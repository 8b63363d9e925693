/-!
# The states of a driver

A module is loaded, linked and instantiated before it can be called.  A call that fails leaves the
driver faulted.
-/

namespace ContractHost

/-- How far a driver has come with its module. -/
inductive DriverState where
  | unloaded
  | loaded
  | linked
  | instantiated
  | ready
  | running
  | faulted
  deriving DecidableEq, Repr

/-- The state as a word. -/
def DriverState.text : DriverState → String
  | unloaded => "unloaded"
  | loaded => "loaded"
  | linked => "linked"
  | instantiated => "instantiated"
  | ready => "ready"
  | running => "running"
  | faulted => "faulted"

/-- What can be asked of a driver that not every state allows. -/
inductive Operation where
  | load
  | link
  | instantiate
  | invoke
  | readMemory
  deriving DecidableEq, Repr

/-- The operation as words. -/
def Operation.text : Operation → String
  | load => "load"
  | link => "link"
  | instantiate => "instantiate"
  | invoke => "invoke"
  | readMemory => "read memory"

end ContractHost
