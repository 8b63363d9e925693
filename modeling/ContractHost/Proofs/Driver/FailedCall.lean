import ContractHost.Proofs.Driver.Guests
import ContractHost.Proofs.Driver.Scope
import ContractHost.Proofs.Import.Linking

/-!
# The log of a failed call

After a call that fails the open log stays with the instance.  If the entry point was accepted, it
shows what the host functions made of an empty log that the guest called before the failure.  If the
entry point was rejected, no log was opened for the call, and the log shows what it showed before:
nothing, or on the first call after an instantiation what the start function recorded
(`Driver.invoke_error_log`).
-/

namespace ContractHost

namespace Wasm.Instance

/-- A call keeps the functions of the instance. -/
lemma program_of_call {i i' : Instance} {name : String} {result : Except SandboxError Unit}
    (h : i.call name = (result, i')) : i'.program = i.program := by
  unfold call at h
  dsimp only at h
  split at h
  · cases h
    rfl
  · split at h <;> cases h <;> rfl

end Wasm.Instance

namespace Driver

variable {d d' : Driver Wasm.Source Wasm.Module Wasm.Instance} {budget : Wasm.Budget}
  {registry : Registry} {config : Config} {i : Wasm.Instance} {entry : String}

/-! ## Instances and what they were made of -/

/-- All functions that the instance imports were linked. -/
def ImportsLinked (_ : DriverState) (_ : Wasm.Module) (bs : List Binding) (i : Wasm.Instance) :
    Prop := ∀ b ∈ i.program.imports, b ∈ bs

/-- Instances import what was linked, whatever is done with them. -/
lemma kept_importsLinked (budget : Wasm.Budget) (registry : Registry) (config : Config) :
    Kept (Wasm.engine budget) registry config ImportsLinked where
  made _ hmade _ hb := Wasm.Instance.mem_of_mem_imports_new hmade hb
  rejected hlinked := hlinked
  returned {_ _ i i' _} hlinked hcall b hb := by
    have hsame : i'.program = i.program :=
      Wasm.Instance.program_of_call (i := i.holding .empty) hcall
    exact hlinked b (hsame ▸ hb)
  failed {_ _ i i' _ _} hlinked hcall b hb := by
    have hsame : i'.program = i.program :=
      Wasm.Instance.program_of_call (i := i.holding .empty) hcall
    exact hlinked b (hsame ▸ hb)
  written hlinked _ := hlinked

/-- If the driver is ready, the open log is empty or the one that the instance was made with. -/
def LogOfStart (budget : Wasm.Budget) (config : Config) (state : DriverState) (m : Wasm.Module)
    (bs : List Binding) (i : Wasm.Instance) : Prop :=
  state = .ready → i.context.log = .empty ∨ ∃ r made,
    Wasm.Instance.new budget m bs (.new r config.logLimits) = .ok made ∧
      i.context.log = made.context.log

/-- An instance is left with an empty log by each call that returns. -/
lemma kept_logOfStart (budget : Wasm.Budget) (registry : Registry) (config : Config) :
    Kept (Wasm.engine budget) registry config (LogOfStart budget config) where
  made {_ _ r i} _ hmade _ := Or.inr ⟨r, i, hmade, rfl⟩
  rejected _ hready := nomatch hready
  returned _ _ _ := Or.inl rfl
  failed _ _ hready := nomatch hready
  written hlog _ := hlog

/-! ## Failed calls -/

/-- After a call of a ready driver that fails, the driver is faulted.  If the entry point was
accepted, the open log is the one that the host functions made of an empty one; if they only add
records, as they do if all registered functions do, it holds what they added, in order.  If the
entry point was rejected, the open log is the one that was open before: it is empty, or it is still
the one that the instance was made with. -/
theorem invoke_error_log {e : SandboxError}
    (h : Reachable (Wasm.engine budget) registry config d) (hready : d.state = .ready)
    (hfails : d.invoke entry = (.error e, d')) :
    d'.state = .faulted ∧ ∃ m i, d.module = some m ∧ d.guest = some i ∧
      (checkEntryPoint d.declared entry = .ok () →
        (∃ context, Wasm.HostCall.Threads i.context.clearLog
            ((i.holding .empty).hostCalls entry) context ∧ d'.currentLog = some context.log) ∧
        (∀ added, List.Forall₂ Wasm.HostCall.Adds ((i.holding .empty).hostCalls entry) added →
          d'.currentLog = some (.ofList added.flatten)) ∧
        ((∀ b ∈ registry.bindings, b.OnlyAdds) →
          ∃ added, List.Forall₂ Wasm.HostCall.Adds ((i.holding .empty).hostCalls entry) added)) ∧
      ∀ e', checkEntryPoint d.declared entry = .error e' →
        e = e' ∧ d'.currentLog = some i.context.log ∧
          (i.context.log = .empty ∨ ∃ r made,
            Wasm.Instance.new budget m d.linked (.new r config.logLimits) = .ok made ∧
              i.context.log = made.context.log) := by
  obtain ⟨hengine, hregistry, hconfig, hcoherent⟩ := h.coherent
  have hlinked := Coherent.isLinked_of_state (Or.inr hready)
  obtain ⟨m, hm⟩ := hcoherent.exists_module hlinked.1
  cases hcoherent.called hfails with
  | refused hstate => exact absurd hready hstate
  | rejected _ hentry =>
    obtain ⟨i, hi⟩ := Option.isSome_iff_exists.1 (hcoherent.guest_isSome.2 (Or.inl hready))
    have hopen := h.holds (kept_logOfStart budget registry config) m i hm hi hready
    refine ⟨rfl, m, i, hm, hi, fun hok => ?_, fun e' he' => ?_⟩
    · cases hentry.symm.trans hok
    · cases hentry.symm.trans he'
      exact ⟨rfl, currentLog_of_guest hengine hi, hopen⟩
  | @failed i i' _ _ hentry hi hcall =>
    have hthreads := (i.holding .empty).threads_hostCalls entry
    rw [← call_takeLog hengine, hcall] at hthreads
    have hlog : currentLog { d with guest := some i', state := .faulted } =
        some i'.context.log := currentLog_of_guest hengine rfl
    refine ⟨rfl, m, i, hm, hi, fun _ => ⟨⟨_, hthreads, hlog⟩, fun added hadded => ?_, ?_⟩, ?_⟩
    · rw [hlog, hthreads.log_eq hadded]
      rfl
    · intro honly
      refine (i.holding .empty).exists_forall₂_adds_hostCalls entry fun b hb => honly b ?_
      have hbound := h.holds (kept_importsLinked budget registry config) m i hm hi b hb
      have hlink := hcoherent.linked_eq hlinked m hm
      rw [hregistry] at hlink
      exact Registry.mem_bindings_of_link hlink hbound
    · intro e' he'
      cases hentry.symm.trans he'

end Driver

/-! ## A guest that stops -/

namespace Wasm

/-- The function that tells a number and then goes on with other code. -/
def telling (w : UInt32) (rest : List Instr) : Function := ⟨0, 0, 0, .const w :: .call 0 :: rest⟩

/-- The text of a function that tells one. -/
def tellOneText : FunctionText := ⟨⟨[], []⟩, [], ["i32.const 1", "call 0"]⟩

/-- The text of a function that tells two, and then stops. -/
def tellTwoText : FunctionText := ⟨⟨[], []⟩, [], ["i32.const 2", "call 0", "unreachable"]⟩

/-- The module that tells one when it starts, and has an entry point that tells two and stops. -/
def stopping : Module where
  description :=
    { Description.empty with
      imports := [⟨"env", "tell", .function ⟨[.i32], []⟩⟩]
      memories := [⟨0, none⟩]
      functions := [tellOneText, tellTwoText]
      exports := [⟨memoryExportName, .memory, 0⟩, ⟨"main", .function, 2⟩]
      start := some 1 }
  functions := #[telling 1 [], telling 2 [.unreachable]]

/-- The functions of the module, with the host function. -/
def stoppingProgram : Program :=
  ⟨#[tell], #[telling 1 [], telling 2 [.unreachable]], addressablePages, growingBudget.limiter⟩

/-- An instance of the module. -/
def stoppingInstance (context : Context) : Instance :=
  ⟨stopping, stoppingProgram, growingBudget, 7, .zeros 0, context⟩

/-- The module is made of its description. -/
lemma ofSource_stopping : Module.ofSource (.description stopping.description) = .ok stopping := by
  have hone : assemble tellOneText.body = some (telling 1 []).body := by
    simp +decide [assemble, tellOneText, telling, Line.ofText, lineWords, String.splitOn,
      String.splitOnAux]
    rfl
  have htwo : assemble tellTwoText.body = some (telling 2 [.unreachable]).body := by
    simp +decide [assemble, tellTwoText, telling, Line.ofText, lineWords, String.splitOn,
      String.splitOnAux]
    rfl
  have hfirst : stopping.description.compileFunction tellOneText = some (telling 1 []) :=
    Description.compileFunction_of_assemble hone (by decide +kernel)
  have hsecond : stopping.description.compileFunction tellTwoText =
      some (telling 2 [.unreachable]) :=
    Description.compileFunction_of_assemble htwo (by decide +kernel)
  have hfunctions : stopping.description.functions.mapM stopping.description.compileFunction =
      some [telling 1 [], telling 2 [.unreachable]] := by
    rw [show stopping.description.functions = [tellOneText, tellTwoText] from rfl, List.mapM_cons,
      hfirst, List.mapM_cons, hsecond]
    rfl
  exact Module.ofSource_eq_ok (by decide +kernel) hfunctions rfl

variable {p : Program} {context context' : Context} {w : UInt32}

/-- The function tells its number, with the host function for that, and goes on. -/
lemma run_telling (hp : p.callee? 0 = some (.host tell))
    (h : context.record "tell" (pagesRecord w) = .ok context') (fuel : Nat) (memory : Memory)
    (rest : List Instr) :
    (Program.machine (telling w rest) (fuel + 3) memory context).run p =
        (⟨fuel, memory, context', ⟨rest, [], [], #[], 0⟩, []⟩ : Machine).run p ∧
      (Program.machine (telling w rest) (fuel + 3) memory context).hostCalls p =
        ⟨tell, context, memory, [w.toInt32]⟩ ::
          (⟨fuel, memory, context', ⟨rest, [], [], #[], 0⟩, []⟩ : Machine).hostCalls p := by
  have hconst : (Program.machine (telling w rest) (fuel + 3) memory context).step p =
      .next ⟨fuel + 1, memory, context, ⟨.call 0 :: rest, [w], [], #[], 0⟩, []⟩ := rfl
  have hcall := step_tell hp h (fuel + 1) memory rest
  have hrecorded : (⟨fuel + 1, memory, context, ⟨.call 0 :: rest, [w], [], #[], 0⟩, []⟩ :
      Machine).hostCall? p = some ⟨tell, context, memory, [w.toInt32]⟩ := by
    simp only [Machine.hostCall?, hp]
    rfl
  constructor
  · rw [Machine.run_of_next hconst, Machine.run_of_next hcall]
    rfl
  · rw [Machine.hostCalls_of_next hconst, Machine.hostCalls_of_next hcall, hrecorded]
    rfl

/-- The instance before it starts, in any context. -/
lemma prepare_stopping (context : Context) :
    Instance.prepare growingBudget stopping [tell] context =
      .ok { stoppingInstance context with fuel := 10 } := by
  have himports : Instance.resolveImports stopping [tell] = .ok [tell] := rfl
  have hmemory : Instance.newMemory stopping growingBudget = .ok (.zeros (0 * pageSize)) :=
    Instance.newMemory_of_le (by decide)
  have hprogram : Instance.programOf stopping growingBudget [tell] = stoppingProgram := rfl
  simp only [Instance.prepare, himports, hmemory, hprogram, bind, Except.bind]
  rfl

/-- The instance that is made has told one. -/
lemma new_stopping (reason : ByteArray) :
    Instance.new growingBudget stopping [tell] (.new reason .standard) =
      .ok (stoppingInstance (pagesContext reason 1)) := by
  have hrun : stoppingProgram.runStart 1 10 (.zeros 0) (.new reason .standard) =
      ⟨7, .zeros 0, pagesContext reason 1, .finished⟩ :=
    (run_telling rfl (record_pages reason 1) 7 (.zeros 0) []).1.trans (Machine.run_of_halt rfl)
  have hstart : Instance.start { stoppingInstance (.new reason .standard) with fuel := 10 } =
      .ok (stoppingInstance (pagesContext reason 1)) := by
    simp only [Instance.start, stoppingInstance, stopping, hrun]
    rfl
  simp only [Instance.new, prepare_stopping, bind, Except.bind, hstart]
  rfl

/-- The entry point tells two, and stops. -/
lemma call_stopping (reason : ByteArray) :
    (stoppingInstance (.new reason .standard)).call "main" =
        (.error (.trapped Trap.unreachable.message), stoppingInstance (pagesContext reason 2)) ∧
      (stoppingInstance (.new reason .standard)).hostCalls "main" =
        [⟨tell, .new reason .standard, .zeros 0, [2]⟩] := by
  obtain ⟨hrun, hcalls⟩ := run_telling (p := stoppingProgram) rfl (record_pages reason 2) 7
    (.zeros 0) [.unreachable]
  have hexport : stopping.exportedFunction? "main" = some 2 := rfl
  have htype : Instance.functionType stopping 2 = .function entrySignature := rfl
  have hexported : stoppingProgram.runExport 2 10 (.zeros 0) (.new reason .standard) =
      ⟨7, .zeros 0, pagesContext reason 2, .trapped .unreachable⟩ :=
    hrun.trans (Machine.run_of_halt rfl)
  have hexportCalls : stoppingProgram.exportCalls 2 10 (.zeros 0) (.new reason .standard) =
      [⟨tell, .new reason .standard, .zeros 0, [2]⟩] :=
    hcalls.trans (congrArg _ (Machine.hostCalls_of_halt rfl))
  have hcall := @Instance.call_of_runExport (stoppingInstance (.new reason .standard)) "main" 2 _
    hexport htype hexported
  have hmade := @Instance.hostCalls_of_exported (stoppingInstance (.new reason .standard)) "main" 2
    hexport htype
  exact ⟨hcall, hmade.trans hexportCalls⟩

end Wasm

namespace Driver

/-- The driver with an instance of the module, for a reason, with its open log. -/
def stoppingReady (reason : ByteArray) (log : Log) :
    Driver Wasm.Source Wasm.Module Wasm.Instance :=
  { (new (Wasm.engine Wasm.growingBudget) growingRegistry .standard).accept Wasm.stopping with
    linked := [Wasm.tell]
    state := .ready
    reason := some reason
    guest := some (Wasm.stoppingInstance ⟨reason, log, .standard⟩) }

/-- The driver can come about, with the record of the start in its open log. -/
lemma reachable_stoppingReady : ∃ r,
    Reachable (Wasm.engine Wasm.growingBudget) growingRegistry .standard
      (stoppingReady r (pagesLog 1)) := by
  obtain ⟨r, hr⟩ : ∃ r, (Payload.ofTransfer none ⟨none, 1⟩).encode = .ok r :=
    ⟨_, Payload.encode_eq_ok rfl⟩
  have hlinked := @reachable_linked _ _ _ (Wasm.engine Wasm.growingBudget) growingRegistry
    .standard _ _ _ Wasm.ofSource_stopping rfl
  exact ⟨r, hlinked.ready rfl rfl hr (Wasm.new_stopping r)⟩

/-- The guest told one when it started, and that is in the open log.  A call that tells two and then
stops leaves two in the log, and nothing else. -/
theorem invoke_error_log_stopping :
    ∃ r e d' call, Reachable (Wasm.engine Wasm.growingBudget) growingRegistry .standard
        (stoppingReady r (pagesLog 1)) ∧
      (stoppingReady r (pagesLog 1)).state = .ready ∧
      (stoppingReady r (pagesLog 1)).currentLog = some (pagesLog 1) ∧
      (stoppingReady r (pagesLog 1)).invoke "main" = (.error e, d') ∧ d'.state = .faulted ∧
      ((Wasm.stoppingInstance ⟨r, pagesLog 1, .standard⟩).holding .empty).hostCalls "main" =
        [call] ∧
      call.Adds [Wasm.pagesRecord 2] ∧ d'.currentLog = some (.ofList [Wasm.pagesRecord 2]) := by
  obtain ⟨r, hreachable⟩ := reachable_stoppingReady
  obtain ⟨hcall, hcalls⟩ := Wasm.call_stopping r
  have hentry : checkEntryPoint (stoppingReady r (pagesLog 1)).declared "main" = .ok () := rfl
  have hfails : (stoppingReady r (pagesLog 1)).invoke "main" =
      (.error (.trapped Wasm.Trap.unreachable.message),
        { stoppingReady r (pagesLog 2) with state := .faulted }) := by
    have hopened := (call_takeLog (d := stoppingReady r (pagesLog 1)) rfl
      (Wasm.stoppingInstance ⟨r, pagesLog 1, .standard⟩) "main").trans hcall
    rw [invoke_eq_callIn rfl rfl hentry, callIn, hopened]
    rfl
  obtain ⟨hfaulted, m, i, _, hi, haccepted, _⟩ := invoke_error_log hreachable rfl hfails
  cases hi
  obtain ⟨_, hlog, _⟩ := haccepted hentry
  have hadds : Wasm.HostCall.Adds ⟨Wasm.tell, .new r .standard, .zeros 0, [2]⟩
      [Wasm.pagesRecord 2] := rfl
  have hadded := List.Forall₂.cons hadds .nil
  exact ⟨r, _, _, _, hreachable, rfl, rfl, hfails, hfaulted, hcalls, hadds,
    hlog [[Wasm.pagesRecord 2]] (hcalls ▸ hadded)⟩

/-- After a call under a name that the module does not export, the driver is faulted, and the open
log still shows what the guest told when it started. -/
theorem invoke_rejected_stopping :
    ∃ r d', Reachable (Wasm.engine Wasm.growingBudget) growingRegistry .standard
        (stoppingReady r (pagesLog 1)) ∧
      (stoppingReady r (pagesLog 1)).state = .ready ∧
      (stoppingReady r (pagesLog 1)).invoke "other" = (.error (.exportNotFound "other"), d') ∧
      d'.state = .faulted ∧ d'.currentLog = some (.ofList [Wasm.pagesRecord 1]) := by
  obtain ⟨r, hreachable⟩ := reachable_stoppingReady
  exact ⟨r, _, hreachable, rfl, rfl, rfl, rfl⟩

end Driver

end ContractHost
