import Mathlib.Tactic.Common
import Mathlib.Algebra.GroupWithZero.Nat
import ContractHost.Context
import ContractHost.Proofs.Checks

/-!
# Logs and what they count

The count of a log is the sum of the sizes of its records.  A context that checks its limits before
it records and a log that is asked whether a record fits come to the same
(`Context.checkCapacity_eq_ok_iff`).  So a log that a context keeps is within the limits of the
context, in whatever way the context came about (`Context.Reachable.withinLimits`).
-/

namespace ContractHost

namespace Log

variable {log : Log}

/-- The count of bytes is the sum of the sizes of the records. -/
def Counted (log : Log) : Prop := log.bytes = (log.toList.map Record.size).sum

/-- A record that is added comes last. -/
@[simp] lemma toList_push (log : Log) (r : Record) : (log.push r).toList = log.toList ++ [r] :=
  Array.toList_push

/-- There are as many records as the log has. -/
lemma length_toList (log : Log) : log.toList.length = log.length := Array.length_toList

/-- A record that is added is one more. -/
@[simp] lemma length_push (log : Log) (r : Record) : (log.push r).length = log.length + 1 :=
  Array.size_push r

/-- An empty log counts nothing. -/
lemma counted_empty : empty.Counted := rfl

/-- A record that is added is counted. -/
lemma Counted.push (h : log.Counted) (r : Record) : (log.push r).Counted := by
  have hbytes : (log.push r).bytes = log.bytes + r.size := rfl
  rw [Counted, hbytes, toList_push, List.map_append, List.sum_append, ← show log.bytes = _ from h]
  simp

end Log

namespace Context

variable {c c' : Context} {function : String} {r : Record}

/-- Bytes are refused for the limit on records, or else for the limit on bytes, in the name of the
function that they are for. -/
lemma checkCapacity_eq_error {incoming : Nat} {e : HostError}
    (h : c.checkCapacity function incoming = .error e) :
    ∃ limit, e = .recordLimit function limit ∨ e = .byteLimit function limit := by
  unfold checkCapacity at h
  split at h
  · exact ⟨_, Or.inl (Except.error.inj h).symm⟩
  · split at h
    · exact ⟨_, Or.inr (Except.error.inj h).symm⟩
    · cases h

/-- A context refuses nothing for its limits just where the log answers that it fits. -/
theorem checkCapacity_eq_ok_iff {incoming : Nat} :
    c.checkCapacity function incoming = .ok () ↔ c.log.fits c.limits incoming = true := by
  rw [checkCapacity, Log.fits, Bool.and_eq_true, decide_eq_true_iff, decide_eq_true_iff]
  split
  next hrecords =>
    exact iff_of_false (fun h => by cases h) fun hfits => Nat.not_lt.2 hrecords hfits.1
  next hrecords =>
    split
    next hbytes =>
      exact iff_of_false (fun h => by cases h) fun hfits => Nat.not_lt.2 hfits.2 hbytes
    next hbytes => exact iff_of_true rfl ⟨Nat.not_le.1 hrecords, Nat.not_lt.1 hbytes⟩

/-- A record is added just if it fits, and then nothing else changes. -/
lemma record_eq_ok_iff : c.record function r = .ok c' ↔
    c.log.fits c.limits r.size = true ∧ c' = { c with log := c.log.push r } := by
  rw [record, bind_eq_ok_iff]
  constructor
  · rintro ⟨_, hcheck, hc'⟩
    exact ⟨checkCapacity_eq_ok_iff.1 hcheck, (Except.ok.inj hc').symm⟩
  · rintro ⟨hfits, rfl⟩
    exact ⟨(), checkCapacity_eq_ok_iff.2 hfits, rfl⟩

/-- A record is refused for one of the limits, in the name of the function that it was made for. -/
lemma record_eq_error {e : HostError} (h : c.record function r = .error e) :
    ∃ limit, e = .recordLimit function limit ∨ e = .byteLimit function limit := by
  rcases bind_eq_error_iff.1 h with hcheck | ⟨_, _, h⟩
  · exact checkCapacity_eq_error hcheck
  · cases h

/-- A record that is refused is refused in the name of the function that it was made for. -/
lemma function?_of_record {e : HostError} (h : c.record function r = .error e) :
    e.function? = some function := by
  obtain ⟨_, rfl | rfl⟩ := record_eq_error h
  · rfl
  · rfl

/-- The contexts that a host comes to hold: a new one, and what becomes of it by recording and by
taking the log. -/
inductive Reachable : Context → Prop
  | new (reason : ByteArray) (limits : LogLimits) : Reachable (.new reason limits)
  | record {c c' : Context} (function : String) (r : Record) (hc : Reachable c)
    (h : c.record function r = .ok c') : Reachable c'
  | clearLog {c : Context} (hc : Reachable c) : Reachable c.clearLog

/-- The log is counted, and within the limits. -/
structure WithinLimits (c : Context) : Prop where
  /-- There are no more records than allowed. -/
  length_le : c.log.length ≤ c.limits.maxRecords.toNat
  /-- There are no more bytes than allowed, as far as a word can tell. -/
  bytes_le : min c.log.bytes maxWord ≤ c.limits.maxBytes.toNat
  /-- The bytes are those of the records. -/
  counted : c.log.Counted

/-- An empty log is within all limits. -/
lemma withinLimits_of_empty (h : c.log = Log.empty) : c.WithinLimits := by
  have hlength : c.log.length = 0 := by rw [h]; rfl
  have hbytes : c.log.bytes = 0 := by rw [h]; rfl
  refine ⟨?_, ?_, ?_⟩
  · omega
  · omega
  · rw [h]
    exact Log.counted_empty

/-- A record that is added leaves the log within the limits. -/
lemma WithinLimits.record (hc : c.WithinLimits) (h : c.record function r = .ok c') :
    c'.WithinLimits := by
  obtain ⟨hfits, rfl⟩ := record_eq_ok_iff.1 h
  rw [Log.fits, Bool.and_eq_true, decide_eq_true_iff, decide_eq_true_iff] at hfits
  obtain ⟨hrecords, hbytes⟩ := hfits
  refine ⟨?_, hbytes, hc.counted.push r⟩
  rw [Log.length_push]
  exact hrecords

/-- However a context came about, its log is counted and within the limits. -/
theorem Reachable.withinLimits (h : c.Reachable) : c.WithinLimits := by
  induction h with
  | new reason limits => exact withinLimits_of_empty rfl
  | record function r _ hrecord ih => exact ih.record hrecord
  | clearLog _ _ => exact withinLimits_of_empty rfl

end Context

end ContractHost
