import Mathlib.Tactic.Common
import ContractHost.Proofs.Log.Fitting
import ContractHost.Driver.Basic

/-!
# What is kept within limits

Records are moved into a log up to the first that does not fit (`Log.appendWithin_eq`).  A report
gathers the logs of a run one by one, and each of them is cut in this way anew.  So a report keeps
records in order and counts all others (`RunReport.Accounts`), but it need not keep the beginning:
where a log begins with a record that fits, it is kept even if a record was left out before
(`RunReport.Resumes`).  This is the only way in which a report fails to be the beginning
(`RunReport.Truncates.foldl`, `RunReport.Truncates.foldl_skips`).
-/

namespace ContractHost

namespace Log

/-- Records are added up to the first that does not fit, and the others are counted. -/
lemma addWhileFits_eq (limits : LogLimits) (log : Log) (rs : List Record) :
    ∃ kept rest, rs = kept ++ rest ∧
      addWhileFits limits log rs = (kept.foldl push log, rest.length) ∧
      (∀ r ∈ kept.head?, log.fits limits r.size = true) ∧
      ∀ r ∈ rest.head?, (kept.foldl push log).fits limits r.size = false := by
  obtain ⟨k, hk, hadd, hroom⟩ := addWhileFits_longest limits log rs
  refine ⟨rs.take k, rs.drop k, (List.take_append_drop k rs).symm, ?_, fun r hr => ?_,
    fun r hr => ?_⟩
  · rw [hadd, List.length_drop]
  · obtain _ | k := k
    · cases hr
    · obtain _ | ⟨first, rs⟩ := rs
      · cases hr
      · obtain rfl : first = r := Option.some.inj hr
        exact fits_iff_hasRoom.2 ((hroom 0 (Nat.succ_pos _)).1 (Nat.succ_pos k))
  · rw [Option.mem_def, List.head?_drop] at hr
    obtain ⟨hlt, -⟩ := List.getElem?_eq_some_iff.1 hr
    have htake : rs.take (k + 1) = rs.take k ++ [r] := by
      rw [List.take_add_one, hr]
      rfl
    rw [← Bool.not_eq_true, fits_iff_hasRoom, hasRoom_foldl_push, ← htake, ← hroom k hlt]
    exact Nat.lt_irrefl k

/-- A log is added up to its first record that does not fit, and the others are counted. -/
lemma appendWithin_eq (limits : LogLimits) (log other : Log) :
    ∃ kept rest, other.toList = kept ++ rest ∧
      log.appendWithin other limits = (kept.foldl push log, rest.length) ∧
      (∀ r ∈ kept.head?, log.fits limits r.size = true) ∧
      ∀ r ∈ rest.head?, (kept.foldl push log).fits limits r.size = false :=
  addWhileFits_eq limits log other.toList

end Log

namespace Driver.RunReport

variable {limits : LogLimits} {report : RunReport} {records : List Record} {log : Log}
  {logs : List Log}

/-- The report keeps some of the records in order, and counts the others. -/
structure Accounts (report : RunReport) (records : List Record) : Prop where
  /-- The records are kept in order. -/
  sublist : report.log.toList.Sublist records
  /-- Every record is kept or counted. -/
  count : report.log.length + report.dropped = records.length

/-- The report keeps the records up to the first that does not fit, and counts the others. -/
def Truncates (limits : LogLimits) (report : RunReport) (records : List Record) : Prop :=
  ∃ rest, records = report.log.toList ++ rest ∧ report.dropped = rest.length ∧
    ∀ r ∈ rest.head?, report.log.fits limits r.size = false

/-- The report keeps another record in the place of one that is left out. -/
def Skips (report : RunReport) (records : List Record) : Prop :=
  ∃ before kept omitted keptAfter after, report.log.toList = before ++ kept :: keptAfter ∧
    records = before ++ omitted :: after ∧ kept ≠ omitted

/-- A record was left out, and the log begins with one that still fits. -/
def Restarts (limits : LogLimits) (report : RunReport) (log : Log) : Prop :=
  report.dropped ≠ 0 ∧ ∃ r ∈ log.toList.head?, report.log.fits limits r.size = true

/-- Among the logs is one that begins with a record that still fits after one of an earlier log was
left out. -/
def Resumes (limits : LogLimits) (report : RunReport) (logs : List Log) : Prop :=
  ∃ before log after, logs = before ++ log :: after ∧
    Restarts limits (before.foldl (add limits) report) log

/-! ## One log -/

/-- What a log adds to a report. -/
lemma add_eq (limits : LogLimits) (report : RunReport) (log : Log) :
    ∃ kept rest, log.toList = kept ++ rest ∧
      report.add limits log =
        { report with
          log := kept.foldl Log.push report.log
          dropped := report.dropped + rest.length } ∧
      (∀ r ∈ kept.head?, report.log.fits limits r.size = true) ∧
      ∀ r ∈ rest.head?, (kept.foldl Log.push report.log).fits limits r.size = false := by
  obtain ⟨kept, rest, hlog, happend, hkept, hrest⟩ := Log.appendWithin_eq limits report.log log
  exact ⟨kept, rest, hlog, by rw [add, happend], hkept, hrest⟩

/-- What is added is kept in order or counted. -/
lemma Accounts.add (h : report.Accounts records) (limits : LogLimits) (log : Log) :
    (report.add limits log).Accounts (records ++ log.toList) := by
  obtain ⟨kept, rest, hlog, hadd, _, _⟩ := add_eq limits report log
  have hcount := h.count
  rw [hadd, hlog]
  constructor
  · rw [Log.toList_foldl_push]
    exact h.sublist.append (List.sublist_append_left kept rest)
  · rw [← Log.length_toList] at hcount ⊢
    simp only [Log.toList_foldl_push, List.length_append]
    omega

/-- A log that does not restart a report leaves the beginning. -/
lemma Truncates.add (h : report.Truncates limits records) (hnot : ¬report.Restarts limits log) :
    (report.add limits log).Truncates limits (records ++ log.toList) := by
  obtain ⟨omitted, hrecords, hdropped, homitted⟩ := h
  obtain ⟨kept, rest, hlog, hadd, hkept, hrest⟩ := add_eq limits report log
  rw [hadd, hlog, hrecords]
  cases omitted with
  | nil =>
    refine ⟨rest, ?_, ?_, hrest⟩
    · rw [Log.toList_foldl_push, List.append_nil, List.append_assoc]
    · rw [hdropped, List.length_nil, Nat.zero_add]
  | cons r omitted =>
    -- A record was left out before, so that nothing of this log is kept.
    have hnone : kept = [] := by
      cases kept with
      | nil => rfl
      | cons x kept =>
        refine absurd ⟨?_, x, ?_, hkept x rfl⟩ hnot
        · rw [hdropped, List.length_cons]
          omega
        · rw [hlog]
          rfl
    subst hnone
    refine ⟨r :: omitted ++ rest, ?_, ?_, homitted⟩
    · rw [List.nil_append, List.append_assoc, List.foldl_nil]
    · rw [hdropped, List.length_append]

/-- A log that restarts a report has its first record kept in the place of one that was left out. -/
lemma Truncates.add_skips (h : report.Truncates limits records)
    (hrestarts : report.Restarts limits log) :
    (report.add limits log).Skips (records ++ log.toList) := by
  obtain ⟨omitted, hrecords, hdropped, homitted⟩ := h
  obtain ⟨hsome, x, hx, hxfits⟩ := hrestarts
  obtain ⟨kept, rest, hlog, hadd, -, hrest⟩ := add_eq limits report log
  cases omitted with
  | nil => exact absurd hdropped hsome
  | cons r omitted =>
    cases kept with
    | nil =>
      have hnot := hrest x (by rw [hlog] at hx; exact hx)
      rw [List.foldl_nil, hxfits] at hnot
      cases hnot
    | cons y kept =>
      have hxy : y = x := by
        rw [hlog] at hx
        exact Option.some.inj hx
      subst hxy
      refine ⟨report.log.toList, y, r, kept, omitted ++ log.toList, ?_, ?_, ?_⟩
      · rw [hadd, Log.toList_foldl_push]
      · rw [hrecords, List.append_assoc, List.cons_append]
      · rintro rfl
        rw [homitted y rfl] at hxfits
        cases hxfits

/-- What was skipped stays skipped. -/
lemma Skips.add (h : report.Skips records) (limits : LogLimits) (log : Log) :
    (report.add limits log).Skips (records ++ log.toList) := by
  obtain ⟨before, x, y, t, q, hkept, hrecords, hne⟩ := h
  obtain ⟨kept, rest, -, hadd, -, -⟩ := add_eq limits report log
  refine ⟨before, x, y, t ++ kept, q ++ log.toList, ?_, ?_, hne⟩
  · rw [hadd, Log.toList_foldl_push, hkept, List.append_assoc, List.cons_append]
  · rw [hrecords, List.append_assoc, List.cons_append]

/-- A report that skips does not keep the beginning. -/
lemma Skips.not_isPrefix (h : report.Skips records) : ¬report.log.toList <+: records := by
  rintro ⟨rest, hrest⟩
  obtain ⟨before, x, y, t, q, hkept, hrecords, hne⟩ := h
  rw [hkept, hrecords, List.append_assoc, List.cons_append] at hrest
  exact hne (List.head_eq_of_cons_eq (List.append_cancel_left hrest))

/-! ## Several logs -/

/-- Nothing is resumed without logs. -/
lemma not_resumes_nil : ¬Resumes limits report [] := by
  rintro ⟨before, log, after, hlogs, -⟩
  exact List.append_ne_nil_of_right_ne_nil before (List.cons_ne_nil log after) hlogs.symm

/-- Either the first log restarts a report or a later one does. -/
lemma resumes_cons : Resumes limits report (log :: logs) ↔
    Restarts limits report log ∨ Resumes limits (report.add limits log) logs := by
  constructor
  · rintro ⟨before, first, after, hlogs, hrestarts⟩
    cases before with
    | nil =>
      obtain ⟨rfl, rfl⟩ := List.cons_eq_cons.1 hlogs
      exact Or.inl hrestarts
    | cons b before =>
      obtain ⟨rfl, rfl⟩ := List.cons_eq_cons.1 hlogs
      exact Or.inr ⟨before, first, after, rfl, hrestarts⟩
  · rintro (hrestarts | ⟨before, first, after, rfl, hrestarts⟩)
    · exact ⟨[], log, logs, rfl, hrestarts⟩
    · exact ⟨log :: before, first, after, rfl, hrestarts⟩

/-- Whatever logs are added, their records are kept in order or counted. -/
lemma Accounts.foldl (h : report.Accounts records) (limits : LogLimits) (logs : List Log) :
    (logs.foldl (RunReport.add limits) report).Accounts (records ++ logs.flatMap Log.toList) := by
  induction logs generalizing report records with
  | nil => simpa using h
  | cons log logs ih => simpa using ih (h.add limits log)

/-- What was skipped stays skipped, whatever logs are added. -/
lemma Skips.foldl (h : report.Skips records) (limits : LogLimits) (logs : List Log) :
    (logs.foldl (RunReport.add limits) report).Skips (records ++ logs.flatMap Log.toList) := by
  induction logs generalizing report records with
  | nil => simpa using h
  | cons log logs ih => simpa using ih (h.add limits log)

/-- Logs that do not resume a report leave the beginning. -/
lemma Truncates.foldl (h : report.Truncates limits records) (hnot : ¬Resumes limits report logs) :
    (logs.foldl (RunReport.add limits) report).Truncates limits
      (records ++ logs.flatMap Log.toList) := by
  induction logs generalizing report records with
  | nil => simpa using h
  | cons log logs ih =>
    rw [resumes_cons, not_or] at hnot
    simpa using ih (h.add hnot.1) hnot.2

/-- Logs that resume a report leave something skipped. -/
lemma Truncates.foldl_skips (h : report.Truncates limits records)
    (hresumes : Resumes limits report logs) :
    (logs.foldl (RunReport.add limits) report).Skips (records ++ logs.flatMap Log.toList) := by
  induction logs generalizing report records with
  | nil => exact absurd hresumes not_resumes_nil
  | cons log logs ih =>
    -- The first log that restarts the report leaves a gap, which the later ones do not close.
    by_cases hrestarts : Restarts limits report log
    · simpa using (h.add_skips hrestarts).foldl limits logs
    · simpa using ih (h.add hrestarts) ((resumes_cons.1 hresumes).resolve_left hrestarts)

end Driver.RunReport

end ContractHost
