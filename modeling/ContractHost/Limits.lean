/-!
# Limits on a log

How many records, and how many bytes in all, a log may hold.  A sum of bytes is compared with the
limit after saturation at the largest word, so a byte limit of `2 ^ 64 - 1` is no limit at all.
-/

namespace ContractHost

/-- The largest number of records and the largest sum of record sizes of a log. -/
structure LogLimits where
  maxRecords : UInt64
  maxBytes : UInt64
  deriving DecidableEq, Repr

/-- The largest byte count that a word holds. -/
def maxWord : Nat := UInt64.size - 1

/-- The sum of two byte counts, or the largest word if it is beyond that. -/
def saturatingAdd (held incoming : Nat) : Nat := min (held + incoming) maxWord

namespace LogLimits

/-- The limits of one invocation where nothing else is said: 4096 records and 1 MiB. -/
def standard : LogLimits := ⟨4096, 1048576⟩

end LogLimits

end ContractHost
