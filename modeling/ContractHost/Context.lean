import ContractHost.HostError
import ContractHost.Log

/-!
# Invocation contexts

What the host keeps for one instance: the serialized reason, the open log, and the limits on the
log.  Recording is refused, with the log untouched, when the record would pass a limit; the number
of records is looked at before the number of bytes.
-/

namespace ContractHost

/-- The reason of an instance, its open log, and the limits on that log. -/
structure Context where
  reason : ByteArray
  log : Log
  limits : LogLimits
  deriving DecidableEq

namespace Context

/-- A context with nothing recorded. -/
def new (reason : ByteArray) (limits : LogLimits) : Context := ⟨reason, Log.empty, limits⟩

/-- The largest value of a signed word of 32 bits. -/
def maxInt32 : Nat := 0x7fffffff

/-- The length of the reason as a guest's integer. -/
def reasonLength (c : Context) : Except HostError Int32 :=
  if c.reason.size ≤ maxInt32 then .ok (Int32.ofNat c.reason.size)
  else .error (.reasonTooLarge c.reason.size)

/-- The context with an empty log. -/
def clearLog (c : Context) : Context := { c with log := Log.empty }

/-- Refuses a record of `incoming` bytes that would pass a limit, in the name of an imported
function. -/
def checkCapacity (c : Context) (function : String) (incoming : Nat) : Except HostError Unit :=
  if c.log.length ≥ c.limits.maxRecords.toNat then
    .error (.recordLimit function c.limits.maxRecords.toNat)
  else if saturatingAdd c.log.bytes incoming > c.limits.maxBytes.toNat then
    .error (.byteLimit function c.limits.maxBytes.toNat)
  else .ok ()

/-- Adds a record on behalf of an imported function. -/
def record (c : Context) (function : String) (r : Record) : Except HostError Context := do
  c.checkCapacity function r.size
  .ok { c with log := c.log.push r }

end Context

end ContractHost
