import Mathlib.Tactic.Common
import ContractHost.Proofs.Driver.History
import ContractHost.Proofs.Log.Truncation
import ContractHost.Wasm.Instance

/-!
# What the report of a run says

A repeated run is a number of iterations that succeed, one on the driver that the other left: all
that were asked for, or those before the first that fails (`Driver.runWith_cases`).  It is reported
just if none fails (`Driver.runRepeated_eq_ok_iff`).  Its report keeps the records of the iterations
in order and counts all that it leaves out; what it keeps is the beginning just if no iteration
resumes it (`Driver.runRepeated_report`).
-/

namespace ContractHost

namespace Driver

variable {Source Module Instance σ : Type} {d d' : Driver Source Module Instance} {entry : String}
  {logs : List Log} {report : RunReport} {n : UInt64}

/-! ## Iterations -/

/-- Calling the entry point again and again succeeds with the logs in turn, and leaves the second
driver. -/
inductive Iterates (entry : String) :
    Driver Source Module Instance → List Log → Driver Source Module Instance → Prop
  | nil (d : Driver Source Module Instance) : Iterates entry d [] d
  | cons {d d' d'' : Driver Source Module Instance} {log : Log} {logs : List Log}
    (hcall : d.iterate entry = (.ok log, d')) (hrest : Iterates entry d' logs d'') :
    Iterates entry d (log :: logs) d''

/-- Iterations that succeed hand their logs to the sink. -/
lemma Iterates.runWith_eq (h : Iterates entry d logs d') (sink : σ → Log → σ) (s : σ)
    (records : Nat) : runWith sink entry logs.length s records d =
      ⟨.ok (), logs.foldl sink s, records + (logs.map Log.length).sum, d'⟩ := by
  induction h generalizing s records with
  | nil d => rfl
  | @cons d d' d'' log logs hcall _ ih =>
    rw [List.length_cons, runWith_of_ok hcall, ih, List.foldl_cons, List.map_cons, List.sum_cons,
      Nat.add_assoc]

/-- A run hands over the logs of iterations that succeed, one after the other.  It succeeds if these
are all that were asked for.  Otherwise the next iteration fails, and the run fails like it. -/
lemma runWith_cases (sink : σ → Log → σ) (entry : String) (n : Nat) (s : σ) (records : Nat)
    (d : Driver Source Module Instance) :
    ∃ logs left, Iterates entry d logs left ∧
      (runWith sink entry n s records d).sink = logs.foldl sink s ∧
      (runWith sink entry n s records d).records = records + (logs.map Log.length).sum ∧
      (logs.length = n ∧ (runWith sink entry n s records d).result = .ok () ∧
          (runWith sink entry n s records d).driver = left ∨
        logs.length < n ∧ ∃ e, (runWith sink entry n s records d).result = .error e ∧
          left.iterate entry = (.error e, (runWith sink entry n s records d).driver)) := by
  induction n generalizing s records d with
  | zero => exact ⟨[], d, .nil d, rfl, rfl, Or.inl ⟨rfl, rfl, rfl⟩⟩
  | succ n ih =>
    rcases hcall : d.iterate entry with ⟨e | log, next⟩
    · rw [runWith_of_error hcall]
      exact ⟨[], d, .nil d, rfl, rfl, Or.inr ⟨Nat.succ_pos n, e, rfl, hcall⟩⟩
    · rw [runWith_of_ok hcall]
      obtain ⟨logs, left, hiterates, hsink, hrecords, hend⟩ :=
        ih (sink s log) (records + log.length) next
      refine ⟨log :: logs, left, .cons hcall hiterates, hsink, ?_, ?_⟩
      · rw [List.map_cons, List.sum_cons, ← Nat.add_assoc]
        exact hrecords
      · rcases hend with ⟨hlength, hdone⟩ | ⟨hlength, hfails⟩
        · exact Or.inl ⟨congrArg Nat.succ hlength, hdone⟩
        · exact Or.inr ⟨Nat.succ_lt_succ hlength, hfails⟩

/-- A run that succeeds is a number of iterations that do. -/
lemma exists_iterates (sink : σ → Log → σ) (m : Nat) (s : σ) (records : Nat)
    (h : (runWith sink entry m s records d).result = .ok ()) :
    ∃ logs d', Iterates entry d logs d' ∧ logs.length = m := by
  obtain ⟨logs, left, hiterates, _, _, ⟨hlength, _⟩ | ⟨_, e, hfails, _⟩⟩ :=
    runWith_cases sink entry m s records d
  · exact ⟨logs, left, hiterates, hlength⟩
  · rw [h] at hfails
    cases hfails

/-- A run is reported just if all its iterations succeed, and the report is that of their logs. -/
lemma runRepeated_eq_ok_iff : d.runRepeated entry n = (.ok report, d') ↔
    ∃ logs, Iterates entry d logs d' ∧ logs.length = n.toNat ∧
      report = logs.foldl (RunReport.add d.config.runLogLimits) ⟨n, 0, .empty⟩ := by
  unfold runRepeated runRepeatedWith
  constructor
  · intro h
    dsimp only at h
    split at h
    · cases h
    next hresult =>
      obtain ⟨logs, d'', hiterates, hlength⟩ := exists_iterates _ _ _ _ hresult
      have hrun := hiterates.runWith_eq (RunReport.add d.config.runLogLimits) ⟨n, 0, .empty⟩ 0
      rw [hlength] at hrun
      rw [hrun] at h
      cases h
      exact ⟨logs, hiterates, hlength, rfl⟩
  · rintro ⟨logs, hiterates, hlength, rfl⟩
    rw [← hlength, hiterates.runWith_eq]

/-! ## Reports -/

/-- A report of nothing is that of no records. -/
lemma RunReport.truncates_empty (limits : LogLimits) (n : UInt64) :
    RunReport.Truncates limits ⟨n, 0, .empty⟩ [] := ⟨[], rfl, rfl, by simp⟩

/-- A report of nothing accounts for no records. -/
lemma RunReport.accounts_empty (n : UInt64) : RunReport.Accounts ⟨n, 0, .empty⟩ [] :=
  ⟨List.Sublist.refl [], rfl⟩

/-- The report of a run keeps records of its iterations in order and counts all others.  If no
iteration resumes it, what it keeps is the beginning, up to the first record that does not fit;
otherwise it is not. -/
theorem runRepeated_report (h : d.runRepeated entry n = (.ok report, d')) :
    ∃ logs, Iterates entry d logs d' ∧ logs.length = n.toNat ∧
      report.Accounts (logs.flatMap Log.toList) ∧
      (¬RunReport.Resumes d.config.runLogLimits ⟨n, 0, .empty⟩ logs →
        report.Truncates d.config.runLogLimits (logs.flatMap Log.toList)) ∧
      (RunReport.Resumes d.config.runLogLimits ⟨n, 0, .empty⟩ logs →
        ¬report.log.toList <+: logs.flatMap Log.toList) := by
  obtain ⟨logs, hiterates, hlength, rfl⟩ := runRepeated_eq_ok_iff.1 h
  have hempty := RunReport.truncates_empty d.config.runLogLimits n
  refine ⟨logs, hiterates, hlength, ?_, fun hnot => ?_, fun hresumes => ?_⟩
  · exact (RunReport.accounts_empty n).foldl d.config.runLogLimits logs
  · exact hempty.foldl hnot
  · exact (hempty.foldl_skips hresumes).not_isPrefix

/-! ## A call that emits a short and a long message -/

/-- The host function that records a short message and then a longer one. -/
def shortAndLong : Handler := .onContext fun c _ _ =>
  match c.record "emit" (.diagnostic "a") with
  | .error e => (c, .error e)
  | .ok c' =>
    match c'.record "emit" (.diagnostic "abc") with
    | .error e => (c', .error e)
    | .ok c'' => (c'', .ok none)

/-- The module that imports the host function and exports it as an entry point. -/
def emitting : Wasm.Description :=
  { Wasm.Description.empty with
    imports := [⟨"env", "emit", .function ⟨[], []⟩⟩]
    memories := [⟨0, none⟩]
    exports := [⟨Wasm.memoryExportName, .memory, 0⟩, ⟨"main", .function, 0⟩] }

/-- A driver with the host function, whose reports have room for two bytes. -/
def twoBytes : Driver Wasm.Source Wasm.Module Wasm.Instance :=
  .new (Wasm.engine ⟨1000, pageSize⟩)
    (Registry.empty.register ⟨"env", "emit", ⟨0, 0⟩, shortAndLong⟩)
    { Config.standard with runLogLimits := ⟨10, 2⟩ }

/-- The driver with an instance of the module. -/
def twoBytesReady : Driver Wasm.Source Wasm.Module Wasm.Instance :=
  twoBytes.afterAll
    [.load (.description emitting), .link, .instantiate (.ofTransfer none ⟨none, 1⟩)]

/-- What a call of the host function leaves in the log. -/
def shortAndLongLog : Log := .ofList [.diagnostic "a", .diagnostic "abc"]

/-- An answer that has a log is that log. -/
lemma eq_ok_of_toOption {answer : Except SandboxError Log × Driver Source Module Instance}
    {log : Log} (h : answer.1.toOption = some log) : answer = (.ok log, answer.2) := by
  obtain ⟨e | log', d⟩ := answer
  · cases h
  · cases h
    rfl

/-- The first call leaves both messages. -/
lemma twoBytesReady_iterate : twoBytesReady.iterate "main" =
    (.ok shortAndLongLog, (twoBytesReady.iterate "main").2) :=
  eq_ok_of_toOption (by decide +kernel)

/-- A single iteration is cut off after the short message. -/
theorem runRepeated_report_once :
    ∃ report d' logs, twoBytesReady.runRepeated "main" 1 = (.ok report, d') ∧
      Iterates "main" twoBytesReady logs d' ∧
      report.log.toList = [.diagnostic "a"] ∧ report.dropped = 1 ∧
      report.Truncates ⟨10, 2⟩ (logs.flatMap Log.toList) := by
  have hrun := runRepeated_eq_ok_iff.2
    ⟨[shortAndLongLog], .cons twoBytesReady_iterate (.nil _), show 1 = (1 : UInt64).toNat from rfl,
      rfl⟩
  obtain ⟨logs, hiterates, hlength, _, htruncates, _⟩ := runRepeated_report hrun
  obtain ⟨log, rfl⟩ := List.length_eq_one_iff.1 hlength
  refine ⟨_, _, _, hrun, hiterates, by decide, by decide, htruncates fun hresumes => ?_⟩
  rcases RunReport.resumes_cons.1 hresumes with ⟨hdropped, _⟩ | hresumes
  · exact hdropped rfl
  · exact RunReport.not_resumes_nil hresumes

/-- With two iterations the short message is kept twice, although the long one that was emitted in
between is not. -/
theorem runRepeated_twoBytesReady :
    twoBytesReady.state = .ready ∧ ∃ report d' logs,
      twoBytesReady.runRepeated "main" 2 = (.ok report, d') ∧
      Iterates "main" twoBytesReady logs d' ∧ logs.length = 2 ∧
      report.log.toList = [.diagnostic "a", .diagnostic "a"] ∧ report.dropped = 2 ∧
      logs.flatMap Log.toList =
        [.diagnostic "a", .diagnostic "abc", .diagnostic "a", .diagnostic "abc"] ∧
      ¬report.log.toList <+: logs.flatMap Log.toList := by
  have hsecond : ((twoBytesReady.iterate "main").2.iterate "main").1.toOption =
      some shortAndLongLog := by decide +kernel
  have hiterates : Iterates "main" twoBytesReady [shortAndLongLog, shortAndLongLog] _ :=
    .cons twoBytesReady_iterate (.cons (eq_ok_of_toOption hsecond) (.nil _))
  have hrun := runRepeated_eq_ok_iff.2 ⟨_, hiterates, show 2 = (2 : UInt64).toNat from rfl, rfl⟩
  have hready : twoBytesReady.state = .ready := by decide +kernel
  exact ⟨hready, _, _, _, hrun, hiterates, rfl, by decide, by decide, by decide, by decide⟩

end Driver

end ContractHost
