import ContractHost.Limits
import ContractHost.Record

/-!
# Logs

The ordered records of one invocation, or of several in a row, with a running count of their bytes.
Every operation that adds a record adds its size to the count.  `Log.fits` tests a record against
limits, and `Log.appendWithin` moves records over while it holds.
-/

namespace ContractHost

/-- The records emitted so far, oldest first, and the sum of their sizes, taken to stay below
`2 ^ 64`. -/
structure Log where
  records : Array Record
  bytes : Nat
  deriving DecidableEq

namespace Log

/-- No records. -/
def empty : Log := ⟨#[], 0⟩

/-- The number of records. -/
def length (log : Log) : Nat := log.records.size

/-- Whether there are no records. -/
def isEmpty (log : Log) : Bool := log.records.isEmpty

/-- The records in order. -/
def toList (log : Log) : List Record := log.records.toList

/-- One more record at the end. -/
def push (log : Log) (record : Record) : Log :=
  ⟨log.records.push record, log.bytes + record.size⟩

/-- The log of the given records. -/
def ofList (records : List Record) : Log :=
  records.foldl push empty

/-- Whether a record of `incoming` bytes may be added within the limits. -/
def fits (log : Log) (limits : LogLimits) (incoming : Nat) : Bool :=
  log.length < limits.maxRecords.toNat &&
    saturatingAdd log.bytes incoming ≤ limits.maxBytes.toNat

/-- The transactions in order, as records. -/
def transactions (log : Log) : List Record :=
  log.toList.filter Record.isTransaction

/-- The diagnostics in order, as records. -/
def diagnostics (log : Log) : List Record :=
  log.toList.filter (!·.isTransaction)

/-- The tags of the transactions in order. -/
def tags (log : Log) : List String := log.toList.filterMap Record.tag?

/-- The messages of the diagnostics in order. -/
def messages (log : Log) : List String := log.toList.filterMap Record.message?

/-- All records of the second log behind those of the first. -/
def append (log other : Log) : Log :=
  ⟨log.records ++ other.records, log.bytes + other.bytes⟩

/-- Adds records while they fit, and counts those from the first that does not on. -/
def addWhileFits (limits : LogLimits) : Log → List Record → Log × Nat
  | log, [] => (log, 0)
  | log, record :: rest =>
    if log.fits limits record.size then addWhileFits limits (log.push record) rest
    else (log, rest.length + 1)

/-- The log with the longest beginning of `other` that fits, and how many records were left out. -/
def appendWithin (log other : Log) (limits : LogLimits) : Log × Nat :=
  addWhileFits limits log other.toList

end Log

end ContractHost
