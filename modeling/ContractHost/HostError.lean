/-!
# Errors of host functions

A `BoundsError` says which range was asked of a memory of which capacity.  A `HostError` is what an
imported function answers with when it refuses a call; all but one name that function.
-/

namespace ContractHost

/-- A range of `length` bytes from `offset` on that is not inside a memory of `capacity` bytes. -/
structure BoundsError where
  offset : Int
  length : Int
  capacity : Nat
  deriving DecidableEq, Repr

/-- The text of the error. -/
def BoundsError.message (e : BoundsError) : String :=
  s!"range [{e.offset}, {e.offset}+{e.length}) outside guest memory of {e.capacity} bytes"

/-- Why a host function refused a call. -/
inductive HostError where
  | bounds (function : String) (source : BoundsError)
  | invalidText (function : String)
  | recordLimit (function : String) (limit : Nat)
  | byteLimit (function : String) (limit : Nat)
  | arity (function : String) (expected found : Nat)
  | reasonTooLarge (size : Nat)
  deriving DecidableEq, Repr

namespace HostError

/-- The host function that refused the call. -/
def function? : HostError → Option String
  | bounds f _ => some f
  | invalidText f => some f
  | recordLimit f _ => some f
  | byteLimit f _ => some f
  | arity f _ _ => some f
  | reasonTooLarge _ => none

/-- The text of the error. -/
def message : HostError → String
  | bounds f source => s!"{f}: {source.message}"
  | invalidText f => s!"{f}: argument is not valid utf-8"
  | recordLimit f limit => s!"{f}: invocation log limit of {limit} records reached"
  | byteLimit f limit => s!"{f}: invocation log limit of {limit} bytes reached"
  | arity f expected found => s!"{f}: expected {expected} arguments, got {found}"
  | reasonTooLarge size => s!"serialized reason of {size} bytes exceeds the i32 range"

end HostError

end ContractHost
