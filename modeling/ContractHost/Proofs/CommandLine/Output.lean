import ContractHost.CommandLine.Run
import ContractHost.Proofs.Driver.Capacity
import ContractHost.Proofs.Driver.FailedCall

/-!
# What a run prints

A guest emits a record with each call of `_send_transaction` or `_error` that succeeds, and the
record tells what the cited ranges of its memory held.  A run from the command line calls the entry
point again and again until a call fails (`CommandLine.Calls`).  It prints the lines of all records
that the guest emitted in these calls, once each and in order, also those of the call that failed
and nothing from the start of an instance; and it is timed just if no call failed
(`CommandLine.execute_shows`).
-/

namespace ContractHost

/-! ## What a call of an entry point emits -/

namespace Wasm

/-- The records that a call of a function of the bridge emits. -/
def HostCall.Emits (call : HostCall) (records : List Record) : Prop :=
  ∃ f : Bridge.HostFunction, call.binding = f.binding ∧
    f.Emits call.context call.memory call.arguments records

/-- What a call emits is what it adds to the log. -/
lemma HostCall.Emits.adds {call : HostCall} {records : List Record} (h : call.Emits records) :
    call.Adds records := by
  obtain ⟨binding, context, memory, arguments⟩ := call
  obtain ⟨f, rfl, hemits⟩ := h
  exact hemits.log_eq

namespace Instance

variable {i : Instance} {emitted : List (List Record)} {entry : String}

/-- In a call of an exported function there are records that the host calls emit. -/
lemma OnBridge.exists_emits (h : i.OnBridge) (entry : String) :
    ∃ emitted, List.Forall₂ HostCall.Emits (i.hostCalls entry) emitted := by
  refine HostCall.exists_forall₂ fun call hcall => ?_
  obtain ⟨f, hf⟩ := h _ (i.mem_imports_of_mem_hostCalls entry call hcall)
  obtain ⟨records, hemits⟩ := f.exists_emits call.context call.memory call.arguments
  exact ⟨records, f, hf, hemits⟩

/-- A call in an empty log leaves what the host calls emitted in the log, in order. -/
lemma toList_log_call (hempty : i.context.log = .empty)
    (hemits : List.Forall₂ HostCall.Emits (i.hostCalls entry) emitted) :
    (i.call entry).2.context.log.toList = emitted.flatten := by
  have hadds : List.Forall₂ HostCall.Adds (i.hostCalls entry) emitted :=
    hemits.imp fun _ _ h => h.adds
  rw [(i.threads_hostCalls entry).log_eq hadds, Log.toList_foldl_push, hempty]
  rfl

end Instance

end Wasm

/-! ## Calls in turn -/

/-- The instance that is called next, in an empty log, if there is the instance that was made and
the one that the call before left.  New instances are all like the one that was made. -/
def InstancePolicy.next (policy : InstancePolicy) (made left : Wasm.Instance) : Wasm.Instance :=
  match policy with
  | .fresh => made.holding .empty
  | .reuse => left.holding .empty

/-- There is no log to be taken from the instance that is called next. -/
lemma InstancePolicy.holding_next (policy : InstancePolicy) (made left : Wasm.Instance) :
    (policy.next made left).holding .empty = policy.next made left := by
  cases policy <;> rfl

/-- Whatever was left, the next call starts in an empty log. -/
lemma InstancePolicy.log_next (policy : InstancePolicy) (made left : Wasm.Instance) :
    (policy.next made left).context.log = .empty := by
  cases policy <;> rfl

/-- The log that was left does not matter for the next call. -/
lemma InstancePolicy.next_holding (policy : InstancePolicy) (made left : Wasm.Instance)
    (log : Log) : policy.next made (left.holding log) = policy.next made left := by
  cases policy <;> rfl

namespace CommandLine

variable {policy : InstancePolicy} {made i left : Wasm.Instance} {entry : String} {n : Nat}
  {emitted : List (List Record)} {error : Option SandboxError}

/-- A number of calls of an entry point, of which the first is one of the instance `i`, with the
records that the guest emits in each of them.  The first call that fails is the last, and gives the
error. -/
inductive Calls (policy : InstancePolicy) (made : Wasm.Instance) (entry : String) :
    Wasm.Instance → Nat → List (List Record) → Option SandboxError → Prop
  | done (i : Wasm.Instance) : Calls policy made entry i 0 [] none
  | returned {i left : Wasm.Instance} {n : Nat} {emitted rest : List (List Record)}
    {error : Option SandboxError} (hcall : i.call entry = (.ok (), left))
    (hemits : List.Forall₂ Wasm.HostCall.Emits (i.hostCalls entry) emitted)
    (hrest : Calls policy made entry (policy.next made left) n rest error) :
    Calls policy made entry i (n + 1) (emitted.flatten :: rest) error
  | failed {i left : Wasm.Instance} {n : Nat} {emitted : List (List Record)} {e : SandboxError}
    (hcall : i.call entry = (.error e, left))
    (hemits : List.Forall₂ Wasm.HostCall.Emits (i.hostCalls entry) emitted) :
    Calls policy made entry i (n + 1) [emitted.flatten] (some e)

/-- The instance that is called next imports what the others do. -/
lemma onBridge_next (hmade : made.OnBridge) (hleft : left.OnBridge) :
    (policy.next made left).OnBridge := by
  cases policy with
  | fresh => exact hmade
  | reuse => exact hleft

/-- With functions of the bridge, any number of calls can be made, until one fails. -/
lemma exists_calls (hmade : made.OnBridge) (hi : i.OnBridge) (n : Nat) :
    ∃ emitted error, Calls policy made entry i n emitted error := by
  induction n generalizing i with
  | zero => exact ⟨[], none, .done i⟩
  | succ n ih =>
    obtain ⟨emitted, hemits⟩ := hi.exists_emits entry
    rcases hcall : i.call entry with ⟨e | _, left⟩
    · exact ⟨_, _, .failed hcall hemits⟩
    · have hleft : left.OnBridge := by
        unfold Wasm.Instance.OnBridge
        rw [Wasm.Instance.program_of_call hcall]
        exact hi
      obtain ⟨rest, error, hrest⟩ := ih (onBridge_next hmade hleft)
      exact ⟨_, _, .returned hcall hemits hrest⟩

/-! ## Iterations -/

/-- The driver is ready to call the entry point, of the instance or of another one like it. -/
structure Prepared (budget : Wasm.Budget) (made : Wasm.Instance) (entry : String)
    (d : HostDriver) : Prop where
  /-- The engine is that of the budget. -/
  engine_eq : d.engine = Wasm.engine budget
  /-- The driver is ready. -/
  state_eq : d.state = .ready
  /-- The instance is there. -/
  guest_eq : d.guest = some made
  /-- The entry point can be called. -/
  entry_ok : checkEntryPoint d.declared entry = .ok ()
  /-- Another instance would be the same. -/
  spawn_eq : ∀ guest, { d with guest := guest }.spawn = (.ok (), d)

namespace Prepared

variable {budget : Wasm.Budget} {d d' : HostDriver} {e : SandboxError}

/-- A driver is prepared by an instantiation that succeeds. -/
lemma of_instantiate {p : Payload} (hengine : d'.engine = Wasm.engine budget)
    (hmade : d.instantiate p = (.ok (), d'))
    (hentry : checkEntryPoint d'.declared entry = .ok ()) :
    ∃ made, Prepared budget made entry d' := by
  obtain ⟨r, _, hspawn⟩ := Driver.spawn_of_instantiate hmade
  obtain ⟨_, _, made, _, _, _, hd⟩ := Driver.spawn_eq_ok_iff.1 hspawn
  have hstate : d'.state = .ready := by rw [hd]
  have hguest : d'.guest = some made := by rw [hd]
  exact ⟨made, hengine, hstate, hguest, hentry, Driver.spawn_again hspawn⟩

/-- An iteration calls the instance that is next. -/
lemma iterate_eq_callIn (h : Prepared budget made entry d) (i : Wasm.Instance) :
    { d with guest := some i }.iterate entry =
      { d with guest := some (d.config.instancePolicy.next made i) }.callIn
        (d.config.instancePolicy.next made i) entry := by
  -- On both sides the call does not look at the log that was open.
  cases hpolicy : d.config.instancePolicy with
  | fresh =>
    have hiterate : { d with guest := some i }.iterate entry = d.invoke entry :=
      Driver.iterate_of_spawn (d := { d with guest := some i }) hpolicy h.state_eq (h.spawn_eq _) _
    rw [hiterate, Driver.invoke_eq_callIn h.state_eq h.guest_eq h.entry_ok,
      ← Driver.callIn_holding h.engine_eq .empty]
    rfl
  | reuse =>
    rw [Driver.iterate_eq_invoke (d := { d with guest := some i }) (Or.inl hpolicy),
      Driver.invoke_eq_callIn (d := { d with guest := some i }) h.state_eq rfl h.entry_ok,
      ← Driver.callIn_holding (d := { d with guest := some i }) h.engine_eq .empty]
    rfl

/-- If the call returns, so does the iteration, with the log of the call. -/
lemma iterate_of_ok (h : Prepared budget made entry d)
    (hcall : (d.config.instancePolicy.next made i).call entry = (.ok (), left)) :
    { d with guest := some i }.iterate entry =
      (.ok left.context.log, { d with guest := some (left.holding .empty) }) := by
  rw [h.iterate_eq_callIn, Driver.callIn, Driver.call_takeLog h.engine_eq,
    InstancePolicy.holding_next, hcall]
  simp only [h.engine_eq, ← h.state_eq]
  rfl

/-- If the call fails, so does the iteration, and the driver is left with what the call left. -/
lemma iterate_of_error (h : Prepared budget made entry d)
    (hcall : (d.config.instancePolicy.next made i).call entry = (.error e, left)) :
    { d with guest := some i }.iterate entry =
      (.error e, { d with guest := some left, state := .faulted }) := by
  rw [h.iterate_eq_callIn, Driver.callIn, Driver.call_takeLog h.engine_eq,
    InstancePolicy.holding_next, hcall]

end Prepared

/-! ## Runs -/

/-- The outcome shows the records, a line for each, and says whether there was an error: if there
was none the calls were timed, and otherwise it is why the run ended early. -/
structure Outcome.Shows (outcome : Outcome) (entry : String) (records : List Record)
    (error : Option SandboxError) : Prop where
  /-- The lines are those of the records. -/
  lines_eq : outcome.lines.toList = records.map Record.line
  /-- The calls are timed, and their duration is told at the end, just if there was no error. -/
  timed_eq : outcome.timed = error.isNone
  /-- The run ended early just if there was an error. -/
  failure_eq : outcome.failure = error.map (.stage s!"Failed to run '{entry}'")

/-- What is printed of a run. -/
def Outcome.ofRun (entry : String)
    (run : Driver.Run Wasm.Source Wasm.Module Wasm.Instance (Array String)) : Outcome :=
  match run.result with
  | .ok () => ⟨run.sink, true, none⟩
  | .error e =>
    let left := (run.driver.currentLog.map logLines).getD #[]
    .failed (run.sink ++ left) (.stage s!"Failed to run '{entry}'" e)

/-- The lines for the records of a log follow others. -/
lemma toList_append_logLines (lines : Array String) (log : Log) :
    (lines ++ logLines log).toList = lines.toList ++ log.toList.map Record.line := by
  rw [Array.toList_append, logLines, Array.toList_map]
  rfl

/-- A run of a prepared driver shows what the guest emits in the calls, behind what was printed
before. -/
lemma Prepared.shows_runWith {budget : Wasm.Budget} {d : HostDriver} {printed : List Record}
    {lines : Array String} (h : Prepared budget made entry d)
    (hcalls : Calls d.config.instancePolicy made entry i n emitted error)
    (hnext : d.config.instancePolicy.next made left = i)
    (hlines : lines.toList = printed.map Record.line) (count : Nat) :
    (Outcome.ofRun entry (Driver.runWith (fun lines log => lines ++ logLines log) entry n lines
      count { d with guest := some left })).Shows entry (printed ++ emitted.flatten) error := by
  -- Along the calls `left` is what the call before left, and `printed` is what was emitted so far.
  -- What a call that fails has emitted is still in the open log.
  induction hcalls generalizing left printed lines count with
  | done i =>
    rw [List.flatten_nil, List.append_nil]
    exact ⟨hlines, rfl, rfl⟩
  | @returned i left' n emitted rest error hcall hemits hrest ih =>
    subst hnext
    have hlog := Wasm.Instance.toList_log_call (InstancePolicy.log_next _ _ _) hemits
    rw [hcall] at hlog
    rw [Driver.runWith_of_ok (h.iterate_of_ok hcall), List.flatten_cons, ← List.append_assoc]
    refine ih (InstancePolicy.next_holding _ _ _ _) ?_ _
    rw [toList_append_logLines, hlines, hlog, List.map_append]
  | @failed i left' n emitted e hcall hemits =>
    subst hnext
    have hlog := Wasm.Instance.toList_log_call (InstancePolicy.log_next _ _ _) hemits
    rw [hcall] at hlog
    have hleft : Driver.currentLog { d with guest := some left', state := .faulted } =
        some left'.context.log := Driver.currentLog_of_guest h.engine_eq rfl
    rw [Driver.runWith_of_error (h.iterate_of_error hcall), List.flatten_singleton]
    refine ⟨?_, rfl, rfl⟩
    simp only [Outcome.ofRun, Outcome.failed, hleft, Option.map_some, Option.getD_some]
    rw [toList_append_logLines, hlines, hlog, List.map_append]

/-- Where the module of a run is loaded, linked and instantiated and its entry point can be called,
there are calls of the entry point as the settings ask for them, one after the other until one
fails, beginning with the instance that was made.  Whatever they are, the run shows what the guest
emitted in them: it prints a line for each record of each call, in order, also of the call that
failed, and no other line; and the calls are timed just if none failed. -/
theorem execute_shows {o : Options} {config : Option ByteArray} {file : Option Wasm.Source}
    {c : Config} {engine : Engine Wasm.Source Wasm.Module Wasm.Instance} {d₀ d₁ d : HostDriver}
    (hlist : o.listExports = false) (hsettings : o.settings config = .ok c)
    (hengine : Wasm.engineFor c = .ok engine)
    (hload : (Driver.new engine Bridge.registry c).loadFile file = (.ok (), d₀))
    (hlink : d₀.link = (.ok (), d₁)) (hmade : d₁.instantiate o.reason = (.ok (), d))
    (hentry : checkEntryPoint d.declared c.entryPoint = .ok ()) :
    ∃ made, d.guest = some made ∧
      (∃ emitted error, Calls c.instancePolicy made c.entryPoint (made.holding .empty)
        (o.iterations.getD Options.standardIterations).toNat emitted error) ∧
      ∀ emitted error, Calls c.instancePolicy made c.entryPoint (made.holding .empty)
          (o.iterations.getD Options.standardIterations).toNat emitted error →
        (execute o config file).Shows c.entryPoint emitted.flatten error := by
  obtain ⟨rfl, _⟩ := Wasm.engineFor_eq_ok hengine
  have hrun : execute o config file = .ofRun c.entryPoint (d.runRepeatedWith c.entryPoint
      (o.iterations.getD Options.standardIterations) (fun lines log => lines ++ logLines log)
      #[]) := by
    simp only [execute, hsettings, withConfig, hengine, hload, hlist, callModule, hlink, hmade]
    rfl
  have hreachable : Driver.Reachable (Wasm.engine (.ofConfig c)) Bridge.registry c d := by
    have hnew := (@Driver.Reachable.new _ _ _ (Wasm.engine (.ofConfig c)) Bridge.registry c)
    have hloaded := ((hnew.after (.loadFile file)).after .link).after (.instantiate o.reason)
    simp only [Driver.after, hload, hlink, hmade] at hloaded
    exact hloaded
  obtain ⟨made, hprepared⟩ := Prepared.of_instantiate hreachable.coherent.1 hmade hentry
  have hbridge : made.OnBridge := hreachable.onBridge hprepared.guest_eq
  have hopened : (made.holding .empty).OnBridge := hbridge
  have hpolicy : d.config.instancePolicy = c.instancePolicy := by rw [hreachable.coherent.2.2.1]
  refine ⟨made, hprepared.guest_eq, exists_calls hbridge hopened _, fun emitted error hcalls => ?_⟩
  rw [← hpolicy] at hcalls
  have hfirst : d.config.instancePolicy.next made made = made.holding .empty := by
    cases d.config.instancePolicy <;> rfl
  have hnone : (#[] : Array String).toList = ([] : List Record).map Record.line := rfl
  have hshows := hprepared.shows_runWith hcalls hfirst hnone 0
  rw [← hprepared.guest_eq] at hshows
  rw [hrun]
  exact hshows

end CommandLine

/-! ## A guest that reports and stops -/

namespace Wasm

/-- The text of a function that emits a diagnostic without a message, and then stops. -/
def reportText : FunctionText :=
  ⟨⟨[], []⟩, [], ["i32.const 0", "i32.const 0", "call 0", "unreachable"]⟩

/-- The function of the text. -/
def report : Function := ⟨0, 0, 0, [.const 0, .const 0, .call 0, .unreachable]⟩

/-- The module that exports the function as an entry point. -/
def reporting : Module where
  description :=
    { Description.empty with
      imports := [⟨Bridge.space, Bridge.errorName, .function ⟨[.i32, .i32], []⟩⟩]
      memories := [⟨0, none⟩]
      functions := [reportText]
      exports := [⟨memoryExportName, .memory, 0⟩, ⟨"contract_main", .function, 1⟩] }
  functions := #[report]

/-- The module is made of its description. -/
lemma ofSource_reporting :
    Module.ofSource (.description reporting.description) = .ok reporting := by
  have hbody : assemble reportText.body = some report.body := by
    simp +decide [assemble, reportText, report, Line.ofText, lineWords, String.splitOn,
      String.splitOnAux]
    rfl
  have hfunction : reporting.description.compileFunction reportText = some report :=
    Description.compileFunction_of_assemble hbody (by decide +kernel)
  have hfunctions : reporting.description.functions.mapM reporting.description.compileFunction =
      some [report] := by
    rw [show reporting.description.functions = [reportText] from rfl, List.mapM_cons, hfunction]
    rfl
  exact Module.ofSource_eq_ok (by decide +kernel) hfunctions rfl

/-- Fuel for ten instructions, and as many pages as usual. -/
def reportingBudget : Budget := ⟨10, 256 * pageSize⟩

/-- The functions of the module, with the function of the bridge. -/
def reportingProgram : Program :=
  ⟨#[Bridge.errorBinding], #[report], addressablePages, reportingBudget.limiter⟩

/-- An instance of the module. -/
def reportingInstance (fuel : Nat) (context : Context) : Instance :=
  ⟨reporting, reportingProgram, reportingBudget, fuel, .zeros 0, context⟩

/-- A context with a diagnostic without a message in its log. -/
def reportedContext (reason : ByteArray) : Context :=
  ⟨reason, .ofList [.diagnostic ""], .standard⟩

/-- The instance is made as it is, as nothing runs when it starts. -/
lemma new_reporting (reason : ByteArray) :
    Instance.new reportingBudget reporting [Bridge.errorBinding] (.new reason .standard) =
      .ok (reportingInstance 10 (.new reason .standard)) := by
  rfl

/-- A range without bytes makes a diagnostic without a message. -/
lemma diagnosticRecord_nothing :
    Bridge.diagnosticRecord (.zeros 0) 0 0 = .ok (.diagnostic "") := by decide +kernel

/-- The call of `_error` with such a range is served. -/
lemma run_error_nothing (reason : ByteArray) :
    Bridge.errorBinding.handler.run (.new reason .standard) (.zeros 0) [0, 0] =
      ⟨reportedContext reason, .zeros 0, .ok none⟩ := by
  change Bridge.emit _ _ _ (Bridge.diagnosticRecord (.zeros 0) 0 0) = _
  rw [diagnosticRecord_nothing]
  rfl

/-- The call emits the diagnostic. -/
lemma emits_error_nothing (reason : ByteArray) :
    HostCall.Emits ⟨Bridge.errorBinding, .new reason .standard, .zeros 0, [0, 0]⟩
      [.diagnostic ""] := by
  obtain ⟨message, hmessage, hholds⟩ := Bridge.diagnosticRecord_eq_ok_iff.1 diagnosticRecord_nothing
  refine ⟨.error, rfl, .told (congrArg Reply.result (run_error_nothing reason)) ?_⟩
  rw [hmessage]
  exact .diagnostic hholds

/-- The function on its way: its fuel, the context, the code that is left and the operands. -/
def reportAt (fuel : Nat) (context : Context) (code : List Instr) (stack : List UInt32) :
    Machine := ⟨fuel, .zeros 0, context, ⟨code, stack, [], #[], 0⟩, []⟩

/-- The function calls `_error` once, and stops. -/
lemma run_report (reason : ByteArray) :
    (Program.machine report 10 (.zeros 0) (.new reason .standard)).run reportingProgram =
        ⟨6, .zeros 0, reportedContext reason, .trapped .unreachable⟩ ∧
      (Program.machine report 10 (.zeros 0) (.new reason .standard)).hostCalls reportingProgram =
        [⟨Bridge.errorBinding, .new reason .standard, .zeros 0, [0, 0]⟩] := by
  have hfirst : (Program.machine report 10 (.zeros 0) (.new reason .standard)).step
      reportingProgram =
        .next (reportAt 8 (.new reason .standard) [.const 0, .call 0, .unreachable] [0]) := rfl
  have hsecond : (reportAt 8 (.new reason .standard) [.const 0, .call 0, .unreachable] [0]).step
      reportingProgram =
        .next (reportAt 7 (.new reason .standard) [.call 0, .unreachable] [0, 0]) := rfl
  have hcall : (reportAt 7 (.new reason .standard) [.call 0, .unreachable] [0, 0]).step
      reportingProgram = .next (reportAt 6 (reportedContext reason) [.unreachable] []) := by
    have hcallee : reportingProgram.callee? 0 = some (.host Bridge.errorBinding) := rfl
    have harguments : takeArguments Bridge.errorBinding.signature.params [0, 0] = ([0, 0], []) :=
      rfl
    have hzeros : [(0 : UInt32), 0].map UInt32.toInt32 = [0, 0] := rfl
    simp only [reportAt, Machine.step, Machine.exec, Machine.callIndex, Machine.burn, hcallee,
      Machine.callHost, harguments, hzeros, run_error_nothing]
    rfl
  have hstop : (reportAt 6 (reportedContext reason) [.unreachable] []).step reportingProgram =
      .halt ⟨6, .zeros 0, reportedContext reason, .trapped .unreachable⟩ := rfl
  constructor
  · rw [Machine.run_of_next hfirst, Machine.run_of_next hsecond, Machine.run_of_next hcall,
      Machine.run_of_halt hstop]
  · rw [Machine.hostCalls_of_next hfirst, Machine.hostCalls_of_next hsecond,
      Machine.hostCalls_of_next hcall, Machine.hostCalls_of_halt hstop]
    rfl

/-- A call of the entry point is one of the function. -/
lemma call_reporting (reason : ByteArray) :
    (reportingInstance 10 (.new reason .standard)).call "contract_main" =
        (.error (.trapped Trap.unreachable.message),
          reportingInstance 6 (reportedContext reason)) ∧
      (reportingInstance 10 (.new reason .standard)).hostCalls "contract_main" =
        [⟨Bridge.errorBinding, .new reason .standard, .zeros 0, [0, 0]⟩] := by
  obtain ⟨hrun, hcalls⟩ := run_report reason
  have hexport : reporting.exportedFunction? "contract_main" = some 1 := rfl
  have htype : Instance.functionType reporting 1 = .function entrySignature := rfl
  have hexported : reportingProgram.runExport 1 10 (.zeros 0) (.new reason .standard) =
      ⟨6, .zeros 0, reportedContext reason, .trapped .unreachable⟩ := hrun
  have hexportCalls : reportingProgram.exportCalls 1 10 (.zeros 0) (.new reason .standard) =
      [⟨Bridge.errorBinding, .new reason .standard, .zeros 0, [0, 0]⟩] := hcalls
  have hcall := @Instance.call_of_runExport (reportingInstance 10 (.new reason .standard))
    "contract_main" 1 _ hexport htype hexported
  have hmade := @Instance.hostCalls_of_exported (reportingInstance 10 (.new reason .standard))
    "contract_main" 1 hexport htype
  exact ⟨hcall, hmade.trans hexportCalls⟩

end Wasm

namespace CommandLine

/-- Two calls are asked for, with fuel for ten instructions each. -/
def twice : Options := { Options.none with iterations := some 2, fuel := some 10 }

/-- The settings of the run. -/
def tenInstructions : Config := { Config.standard with fuelLimit := 10 }

/-- The driver that has loaded the module. -/
def reportingLoaded : HostDriver :=
  (Driver.new (Wasm.engine Wasm.reportingBudget) Bridge.registry tenInstructions).accept
    Wasm.reporting

/-- The driver that has linked the module. -/
def reportingLinked : HostDriver :=
  { reportingLoaded with linked := [Bridge.errorBinding], state := .linked }

/-- The driver with an instance for a reason. -/
def reportingReady (reason : ByteArray) : HostDriver :=
  { reportingLinked with
    state := .ready
    reason := some reason
    guest := some (Wasm.reportingInstance 10 (.new reason .standard)) }

/-- The module can be instantiated. -/
lemma instantiate_reportingLinked {p : Payload} {reason : ByteArray} (h : p.encode = .ok reason) :
    reportingLinked.instantiate p = (.ok (), reportingReady reason) := by
  have hspawn : (reportingLinked.rebind (some reason)).spawn = (.ok (), reportingReady reason) :=
    Driver.spawn_eq_ok_iff.2
      ⟨Wasm.reporting, reason, _, rfl, rfl, Wasm.new_reporting reason, rfl⟩
  have hlinked : reportingLinked.state = .linked := rfl
  rw [Driver.instantiate, if_pos (Or.inl hlinked), h]
  exact hspawn

/-- Of two calls the first emits a diagnostic and then fails: its line is printed, once, and the
calls are not timed. -/
theorem execute_shows_reporting :
    (execute twice none (some (.description Wasm.reporting.description))).Shows "contract_main"
      [.diagnostic ""] (some (.trapped Wasm.Trap.unreachable.message)) := by
  obtain ⟨r, hr⟩ : ∃ r, twice.reason.encode = .ok r := ⟨_, Payload.encode_eq_ok rfl⟩
  have hload : (Driver.new (Wasm.engine Wasm.reportingBudget) Bridge.registry
      tenInstructions).loadFile (some (.description Wasm.reporting.description)) =
        (.ok (), reportingLoaded) :=
    Driver.loadWith_new_eq_ok_iff.2 ⟨Wasm.reporting, Wasm.ofSource_reporting, rfl⟩
  have hlink : reportingLoaded.link = (.ok (), reportingLinked) := rfl
  have hmade := instantiate_reportingLinked hr
  have hentry : checkEntryPoint (reportingReady r).declared "contract_main" = .ok () := rfl
  have hlist : twice.listExports = false := rfl
  have hsettings : twice.settings none = .ok tenInstructions := rfl
  have hengine : Wasm.engineFor tenInstructions = .ok (Wasm.engine Wasm.reportingBudget) := rfl
  obtain ⟨made, hguest, _, hshows⟩ :=
    execute_shows hlist hsettings hengine hload hlink hmade hentry
  obtain rfl : Wasm.reportingInstance 10 (.new r .standard) = made := Option.some.inj hguest
  obtain ⟨hcall, hcalls⟩ := Wasm.call_reporting r
  have hemits : List.Forall₂ Wasm.HostCall.Emits
      ((Wasm.reportingInstance 10 (.new r .standard)).hostCalls "contract_main")
      [[.diagnostic ""]] := by
    rw [hcalls]
    exact .cons (Wasm.emits_error_nothing r) .nil
  exact hshows _ _ (.failed hcall hemits)

end CommandLine

end ContractHost
