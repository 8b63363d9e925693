import Mathlib.Data.List.Forall2
import ContractHost.Proofs.Driver.Report

/-!
# What a report accounts for

Limits allow some lists of records, and with a list all its beginnings (`LogLimits.Allows`).  A
record fits behind others just if it is allowed with them, so that what is gathered while it fits
stays allowed.  A report gathers the beginning of each log of a run; it never holds more than is
allowed, and it leaves nothing out just if all records of the run are allowed together
(`Driver.RunReport.Gathers`).  In this way it accounts for the whole run
(`Driver.runRepeated_gathers`).
-/

namespace ContractHost

variable {limits : LogLimits} {log : Log} {records : List Record} {r : Record}

/-! ## Allowed records -/

namespace LogLimits

/-- Neither the number of the records nor, as far as a word can tell, that of their bytes passes the
limits. -/
structure Allows (limits : LogLimits) (records : List Record) : Prop where
  /-- There are no more records than allowed. -/
  length_le : records.length ≤ limits.maxRecords.toNat
  /-- There are no more bytes than allowed. -/
  bytes_le : min (records.map Record.size).sum maxWord ≤ limits.maxBytes.toNat

/-- No records are always allowed. -/
lemma allows_nil (limits : LogLimits) : limits.Allows [] := by
  refine ⟨Nat.zero_le _, ?_⟩
  rw [List.map_nil, List.sum_nil, Nat.zero_min]
  exact Nat.zero_le _

/-- With records every beginning of them is allowed. -/
lemma Allows.of_isPrefix {kept : List Record} (h : limits.Allows records)
    (hkept : kept <+: records) : limits.Allows kept := by
  obtain ⟨rest, rfl⟩ := hkept
  obtain ⟨hlength, hbytes⟩ := h
  rw [List.length_append] at hlength
  rw [List.map_append, List.sum_append] at hbytes
  refine ⟨by omega, ?_⟩
  have hle : min (kept.map Record.size).sum maxWord ≤
      min ((kept.map Record.size).sum + (rest.map Record.size).sum) maxWord := by
    omega
  exact Nat.le_trans hle hbytes

/-- Records are allowed if their number and their bytes are within the limits. -/
lemma allows_of_le (hlength : records.length ≤ limits.maxRecords.toNat)
    (hbytes : (records.map Record.size).sum ≤ limits.maxBytes.toNat) : limits.Allows records :=
  ⟨hlength, Nat.le_trans (Nat.min_le_left _ _) hbytes⟩

/-- The bytes of allowed records are within the limits, if there is a limit on them at all or a
word can count them. -/
lemma Allows.sum_le (h : limits.Allows records)
    (hword : limits.maxBytes.toNat < maxWord ∨ (records.map Record.size).sum ≤ maxWord) :
    (records.map Record.size).sum ≤ limits.maxBytes.toNat := by
  have hbytes := h.bytes_le
  omega

end LogLimits

namespace Log

/-- A record fits behind those of a log just if it is allowed with them. -/
lemma fits_iff_allows (h : log.Counted) :
    log.fits limits r.size = true ↔ limits.Allows (log.toList ++ [r]) := by
  have hbytes : ((log.toList ++ [r]).map Record.size).sum = log.bytes + r.size := by
    rw [← toList_push]
    exact (h.push r).symm
  have hlength : (log.toList ++ [r]).length = log.length + 1 := by
    rw [← toList_push, length_toList, length_push]
  rw [fits, Bool.and_eq_true, decide_eq_true_iff, decide_eq_true_iff]
  constructor
  · rintro ⟨hrecords, hroom⟩
    exact ⟨by rw [hlength]; exact hrecords, by rw [hbytes]; exact hroom⟩
  · rintro ⟨hrecords, hroom⟩
    rw [hlength] at hrecords
    rw [hbytes] at hroom
    exact ⟨hrecords, hroom⟩

/-- The log counts the bytes of its records, and these are allowed. -/
structure Within (log : Log) (limits : LogLimits) : Prop where
  /-- The bytes are those of the records. -/
  counted : log.Counted
  /-- The records are allowed. -/
  allows : limits.Allows log.toList

/-- An empty log is within all limits. -/
lemma within_empty (limits : LogLimits) : empty.Within limits :=
  ⟨counted_empty, limits.allows_nil⟩

/-- With a record that fits a log stays within the limits. -/
lemma Within.push (h : log.Within limits) (hfits : log.fits limits r.size = true) :
    (log.push r).Within limits := by
  refine ⟨h.counted.push r, ?_⟩
  rw [toList_push]
  exact (fits_iff_allows h.counted).1 hfits

/-- With records that are added while they fit a log stays within the limits. -/
lemma Within.addWhileFits (h : log.Within limits) (rs : List Record) :
    (addWhileFits limits log rs).1.Within limits := by
  induction rs generalizing log with
  | nil => exact h
  | cons r rs ih =>
    rw [Log.addWhileFits]
    split
    next hfits => exact ih (h.push hfits)
    next => exact h

end Log

/-! ## Reports -/

namespace Driver

namespace RunReport

variable {report : RunReport} {logs : List Log}

/-- The report gathers the logs within the limits: it keeps the beginning of each, and all records
if they are allowed together. -/
structure Gathers (limits : LogLimits) (report : RunReport) (logs : List Log) : Prop where
  /-- What is kept is within the limits. -/
  within : report.log.Within limits
  /-- Of each log the beginning is kept, in the order of the logs. -/
  pieces : ∃ kept, List.Forall₂ (fun piece log => piece <+: log.toList) kept logs ∧
    report.log.toList = kept.flatten
  /-- Records that are allowed together are all kept. -/
  complete : limits.Allows (logs.flatMap Log.toList) →
    report.log.toList = logs.flatMap Log.toList ∧ report.dropped = 0

/-- A report of nothing gathers no logs. -/
lemma gathers_empty (limits : LogLimits) (n : UInt64) : Gathers limits ⟨n, 0, .empty⟩ [] :=
  ⟨Log.within_empty limits, ⟨[], .nil, rfl⟩, fun _ => ⟨rfl, rfl⟩⟩

/-- A log that is added is gathered behind the others. -/
lemma Gathers.add (h : report.Gathers limits logs) (log : Log) :
    (report.add limits log).Gathers limits (logs ++ [log]) := by
  obtain ⟨piece, rest, hlog, hadd, -, hrest⟩ := add_eq limits report log
  have hwithin : (report.add limits log).log.Within limits := h.within.addWhileFits log.toList
  have htoList : (report.add limits log).log.toList = report.log.toList ++ piece := by
    rw [hadd, Log.toList_foldl_push]
  refine ⟨hwithin, ?_, fun hallows => ?_⟩
  · obtain ⟨kept, hkept, hreport⟩ := h.pieces
    refine ⟨kept ++ [piece], List.rel_append hkept (.cons ⟨rest, hlog.symm⟩ .nil), ?_⟩
    rw [htoList, hreport, List.flatten_append, List.flatten_singleton]
  · rw [List.flatMap_append, List.flatMap_singleton] at hallows ⊢
    obtain ⟨hreport, hdropped⟩ := h.complete (hallows.of_isPrefix ⟨_, rfl⟩)
    -- A record that was left out would not be allowed with those before it.
    have hnone : rest = [] := by
      cases rest with
      | nil => rfl
      | cons r rest =>
        have hnot := hrest r rfl
        rw [hadd] at hwithin htoList
        have hbefore : limits.Allows ((piece.foldl Log.push report.log).toList ++ [r]) := by
          refine hallows.of_isPrefix ⟨rest, ?_⟩
          rw [htoList, hreport, hlog, List.append_assoc, List.append_assoc, List.singleton_append]
        rw [(Log.fits_iff_allows hwithin.counted).2 hbefore] at hnot
        cases hnot
    subst hnone
    rw [List.append_nil] at hlog
    refine ⟨by rw [htoList, hreport, hlog], ?_⟩
    rw [hadd, hdropped]
    rfl

/-- Logs that are added one by one are gathered behind the others. -/
lemma Gathers.foldl (h : report.Gathers limits logs) (more : List Log) :
    (more.foldl (RunReport.add limits) report).Gathers limits (logs ++ more) := by
  induction more generalizing report logs with
  | nil => rwa [List.append_nil]
  | cons log more ih =>
    rw [List.foldl_cons, List.append_cons]
    exact ih (h.add log)

/-- A report that leaves nothing out keeps all records. -/
lemma Accounts.toList_eq (h : report.Accounts records) (hdropped : report.dropped = 0) :
    report.log.toList = records := by
  refine h.sublist.eq_of_length ?_
  rw [Log.length_toList, ← h.count, hdropped, Nat.add_zero]

end RunReport

variable {Source Module Instance : Type} {d d' : Driver Source Module Instance} {entry : String}
  {report : RunReport} {n : UInt64}

/-- The report of a run accounts for all records of its iterations, kept or left out.  It keeps the
beginning of the log of each iteration, in order, and never more than its limits allow.  It leaves
nothing out just if all records together are within the limits, and then keeps them all.  (A limit
of the largest word is no limit on the bytes, unless a word can count them.) -/
theorem runRepeated_gathers (h : d.runRepeated entry n = (.ok report, d')) :
    ∃ logs, Iterates entry d logs d' ∧ logs.length = n.toNat ∧
      report.log.length + report.dropped = (logs.flatMap Log.toList).length ∧
      (∃ kept, List.Forall₂ (fun piece log => piece <+: log.toList) kept logs ∧
        report.log.toList = kept.flatten) ∧
      report.log.bytes = (report.log.toList.map Record.size).sum ∧
      report.log.length ≤ d.config.runLogLimits.maxRecords.toNat ∧
      (report.dropped = 0 → report.log.toList = logs.flatMap Log.toList) ∧
      (d.config.runLogLimits.maxBytes.toNat < maxWord ∨ report.log.bytes ≤ maxWord →
        report.log.bytes ≤ d.config.runLogLimits.maxBytes.toNat ∧
        (report.dropped = 0 ↔
          (logs.flatMap Log.toList).length ≤ d.config.runLogLimits.maxRecords.toNat ∧
          ((logs.flatMap Log.toList).map Record.size).sum ≤
            d.config.runLogLimits.maxBytes.toNat)) := by
  obtain ⟨logs, hiterates, hlength, rfl⟩ := runRepeated_eq_ok_iff.1 h
  generalize d.config.runLogLimits = limits
  have haccounts := (RunReport.accounts_empty n).foldl limits logs
  have hgathers := (RunReport.gathers_empty limits n).foldl logs
  rw [List.nil_append] at haccounts hgathers
  generalize logs.foldl (RunReport.add limits) ⟨n, 0, .empty⟩ = report at haccounts hgathers ⊢
  obtain ⟨⟨hcounted, hallows⟩, hpieces, hcomplete⟩ := hgathers
  have hrecords := hallows.length_le
  rw [Log.length_toList] at hrecords
  refine ⟨logs, hiterates, hlength, haccounts.count, hpieces, hcounted, hrecords,
    haccounts.toList_eq, fun hword => ?_⟩
  have hbytes : report.log.bytes ≤ limits.maxBytes.toNat := by
    rw [show report.log.bytes = _ from hcounted] at hword ⊢
    exact hallows.sum_le hword
  refine ⟨hbytes, fun hdropped => ?_, fun ⟨hfew, hsmall⟩ => ?_⟩
  · rw [← haccounts.toList_eq hdropped, Log.length_toList,
      ← show report.log.bytes = _ from hcounted]
    exact ⟨hrecords, hbytes⟩
  · exact (hcomplete (LogLimits.allows_of_le hfew hsmall)).2

/-- Two iterations with two messages each, with room for two bytes: of each iteration the short
message is kept, and the long one is left out. -/
theorem runRepeated_gathers_twice :
    ∃ report d' logs, twoBytesReady.runRepeated "main" 2 = (.ok report, d') ∧
      Iterates "main" twoBytesReady logs d' ∧
      report.log.length = 2 ∧ report.dropped = 2 ∧ report.log.bytes = 2 ∧
      ∃ kept, List.Forall₂ (fun piece log => piece <+: log.toList) kept logs ∧
        [.diagnostic "a", .diagnostic "a"] = kept.flatten := by
  have hsecond : ((twoBytesReady.iterate "main").2.iterate "main").1.toOption =
      some shortAndLongLog := by decide +kernel
  have htwice : Iterates "main" twoBytesReady [shortAndLongLog, shortAndLongLog] _ :=
    .cons twoBytesReady_iterate (.cons (eq_ok_of_toOption hsecond) (.nil _))
  have hrun := runRepeated_eq_ok_iff.2 ⟨_, htwice, show 2 = (2 : UInt64).toNat from rfl, rfl⟩
  obtain ⟨logs, hiterates, _, _, hpieces, _⟩ := runRepeated_gathers hrun
  exact ⟨_, _, logs, hrun, hiterates, by decide, by decide, by decide, hpieces⟩

end Driver

end ContractHost
