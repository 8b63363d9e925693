import ContractHost.Proofs.Driver.Provenance
import ContractHost.Proofs.Wasm.Failure

/-!
# The error of a failed call

A call that fails after its entry point was accepted fails for one of three causes, and its error
tells which: a host function that the guest called refused, and then the error is the one that it
answered with; or the fuel of the call ran out; or the guest trapped.  Where a host function
refused, that was the last thing the guest did, and context and memory are what the function left.
An instantiation whose start function fails tells the cause in the same way
(`Driver.invoke_error_cause`).
-/

namespace ContractHost.Driver

variable {d d' : Driver Wasm.Source Wasm.Module Wasm.Instance} {budget : Wasm.Budget}
  {registry : Registry} {config : Config} {m : Wasm.Module} {made : Wasm.Instance}
  {e : SandboxError} {entry : String} {payload : Payload} {r : ByteArray}

/-- An entry point that a driver accepts is a function that its instance exports. -/
lemma Reachable.exists_exported {i : Wasm.Instance}
    (h : Reachable (Wasm.engine budget) registry config d) (hguest : d.guest = some i)
    (hentry : checkEntryPoint d.declared entry = .ok ()) :
    ∃ index, i.module.exportedFunction? entry = some index ∧
      Wasm.Instance.functionType i.module index = .function entrySignature := by
  obtain ⟨hengine, _, _, hcoherent⟩ := h.coherent
  have hsome : d.guest.isSome := by rw [hguest]; rfl
  obtain ⟨m, hm⟩ := hcoherent.exists_module (hcoherent.isLinked_of_guest hsome).1
  have hdeclared : d.declared = m.exports := by
    rw [hcoherent.declared_eq m hm, hengine]
    rfl
  rw [hdeclared] at hentry
  rw [(h.madeOf hm hguest).module_eq]
  exact Wasm.Instance.exportedFunction?_of_checkEntryPoint hentry

/-- Of an instantiation that fails after the memory was made, the start function is to blame. -/
lemma Reachable.start_eq_error (h : Reachable (Wasm.engine budget) registry config d)
    (hstate : d.state = .linked ∨ d.state = .ready) (hr : payload.encode = .ok r)
    (hm : d.module = some m)
    (hmade : Wasm.Instance.prepare budget m d.linked (.new r config.logLimits) = .ok made)
    (hfails : d.instantiate payload = (.error e, d')) : made.start = .error e := by
  obtain ⟨hengine, _, hconfig, _⟩ := h.coherent
  have hnew := instantiate_eq_new hengine hm hstate hr
  rw [hfails, hconfig] at hnew
  refine Wasm.Instance.start_of_new_error hmade (h.compiled hm).1 ?_
  cases hmake : Wasm.Instance.new budget m d.linked (.new r config.logLimits) with
  | ok i =>
    rw [hmake] at hnew
    cases hnew
  | error e' =>
    rw [hmake] at hnew
    rw [Except.error.inj hnew]

/-- If a call fails after its entry point was accepted, its error is that of a host function just if
one that the guest called answered with it, want of fuel just if the fuel of the call ran out, and
otherwise a trap.  A host function that refuses is the last that is called, and in the last step
that the guest makes; context and memory are what it left, and only if it was called without a guest
in between the memory is that from before.  The same holds of the start function, if an
instantiation fails that had got so far. -/
theorem invoke_error_cause (h : Reachable (Wasm.engine budget) registry config d) :
    (∀ entry e d', d.state = .ready → checkEntryPoint d.declared entry = .ok () →
      d.invoke entry = (.error e, d') →
        ∃ i i', d.guest = some i ∧ d'.guest = some i' ∧
          Wasm.Caused ((i.holding .empty).hostCalls entry) ((i.holding .empty).RunsOut entry) e ∧
          ∀ error, e = .host error → ∃ call,
            Wasm.StopsIn i.program ((i.holding .empty).path entry)
              ((i.holding .empty).hostCalls entry) error call ∧
            i'.context = call.reply.context ∧
            i'.memory = if (i.holding .empty).path entry = [] then i.memory
              else call.reply.memory) ∧
      ∀ payload r m made e d', d.state = .linked ∨ d.state = .ready → payload.encode = .ok r →
        d.module = some m →
        Wasm.Instance.prepare budget m d.linked (.new r config.logLimits) = .ok made →
        d.instantiate payload = (.error e, d') →
          ∃ index, m.description.start = some index ∧
            Wasm.Caused made.startCalls made.StartRunsOut e ∧
            ∀ error, e = .host error → ∃ call,
              Wasm.StopsIn made.program made.startPath made.startCalls error call ∧
              (made.program.runStart index made.fuel made.memory made.context).context =
                call.reply.context ∧
              (made.program.runStart index made.fuel made.memory made.context).memory =
                call.reply.memory := by
  obtain ⟨hengine, _, _, hcoherent⟩ := h.coherent
  constructor
  · intro entry e d' hready hentry hfails
    cases hcoherent.called hfails with
    | refused hstate => exact absurd hready hstate
    | rejected _ hrejected => cases hrejected.symm.trans hentry
    | @failed i i' _ _ _ hguest hcall =>
      obtain ⟨index, hindex, htype⟩ := h.exists_exported hguest hentry
      rw [call_takeLog hengine] at hcall
      obtain ⟨hcaused, hrefused⟩ :=
        Wasm.Instance.caused_of_call (i := i.holding .empty) hindex htype hcall
      exact ⟨i, i', hguest, rfl, hcaused, hrefused⟩
  · intro payload r m made e d' hstate hr hm hmade hfails
    have hmodule := (Wasm.Instance.madeOf_prepare hmade).module_eq
    obtain ⟨index, hindex, hcaused⟩ :=
      Wasm.Instance.caused_of_start (h.start_eq_error hstate hr hm hmade hfails)
    rw [hmodule] at hindex
    exact ⟨index, hindex, hcaused⟩

/-- The settings under which nothing can be recorded. -/
def tightConfig : Config := { Config.standard with logLimits := ⟨0, 0⟩ }

/-- The driver that has linked the module that tells one when it starts, under these settings. -/
def tightLinked : Driver Wasm.Source Wasm.Module Wasm.Instance :=
  { (new (Wasm.engine Wasm.growingBudget) growingRegistry tightConfig).accept Wasm.stopping with
    linked := [Wasm.tell]
    state := .linked }

/-- The driver can come about. -/
lemma reachable_tightLinked :
    Reachable (Wasm.engine Wasm.growingBudget) growingRegistry tightConfig tightLinked :=
  @reachable_linked _ _ _ (Wasm.engine Wasm.growingBudget) growingRegistry tightConfig _ _ _
    Wasm.ofSource_stopping rfl

/-- When the guest starts, its host function refuses, and nothing is recorded. -/
lemma runStart_tight (reason : ByteArray) :
    Wasm.stoppingProgram.runStart 1 10 (.zeros 0) (.new reason ⟨0, 0⟩) =
      ⟨7, .zeros 0, .new reason ⟨0, 0⟩, .refused (.recordLimit "tell" 0)⟩ := by
  have hconst : (Wasm.Program.machine (Wasm.telling 1 []) 10 (.zeros 0)
      (.new reason ⟨0, 0⟩)).step Wasm.stoppingProgram =
        .next ⟨8, .zeros 0, .new reason ⟨0, 0⟩, ⟨[.call 0], [1], [], #[], 0⟩, []⟩ := rfl
  have hcall : (⟨8, .zeros 0, .new reason ⟨0, 0⟩, ⟨[.call 0], [1], [], #[], 0⟩, []⟩ :
      Wasm.Machine).step Wasm.stoppingProgram =
        .halt ⟨7, .zeros 0, .new reason ⟨0, 0⟩, .refused (.recordLimit "tell" 0)⟩ := rfl
  exact (Wasm.Machine.run_of_next hconst).trans (Wasm.Machine.run_of_halt hcall)

/-- So it cannot be instantiated. -/
lemma instantiate_tightLinked (hr : payload.encode = .ok r) :
    ∃ d', tightLinked.instantiate payload = (.error (.host (.recordLimit "tell" 0)), d') := by
  have hstart : Wasm.Instance.start
      { Wasm.stoppingInstance (.new r ⟨0, 0⟩) with fuel := 10 } =
        .error (.host (.recordLimit "tell" 0)) := by
    simp only [Wasm.Instance.start, Wasm.stoppingInstance, Wasm.stopping, runStart_tight]
    rfl
  have hnew : Wasm.Instance.new Wasm.growingBudget Wasm.stopping [Wasm.tell] (.new r ⟨0, 0⟩) =
      .error (.host (.recordLimit "tell" 0)) := by
    simp only [Wasm.Instance.new, Wasm.prepare_stopping, bind, Except.bind, hstart]
  have hmade := instantiate_eq_new (d := tightLinked) (m := Wasm.stopping) rfl rfl (Or.inl rfl) hr
  have hlimits : tightLinked.config.logLimits = ⟨0, 0⟩ := rfl
  have hbindings : tightLinked.linked = [Wasm.tell] := rfl
  rw [hlimits, hbindings, hnew] at hmade
  exact ⟨_, Prod.ext hmade rfl⟩

/-- The guest told one when it started.  A call that tells two and then stops is a trap: its host
function was served, and there was fuel.  Where nothing can be recorded, the same guest cannot
start, and the error is the answer of its one host call. -/
theorem invoke_error_cause_stopping :
    (∃ r d', (stoppingReady r (pagesLog 1)).invoke "main" =
        (.error (.trapped Wasm.Trap.unreachable.message), d') ∧
      Wasm.Caused [⟨Wasm.tell, .new r .standard, .zeros 0, [2]⟩]
        (((Wasm.stoppingInstance ⟨r, pagesLog 1, .standard⟩).holding .empty).RunsOut "main")
        (.trapped Wasm.Trap.unreachable.message)) ∧
      ∃ r d' call, tightLinked.instantiate (.ofTransfer none ⟨none, 1⟩) =
          (.error (.host (.recordLimit "tell" 0)), d') ∧
        Wasm.StopsIn Wasm.stoppingProgram
          { Wasm.stoppingInstance (.new r ⟨0, 0⟩) with fuel := 10 }.startPath
          { Wasm.stoppingInstance (.new r ⟨0, 0⟩) with fuel := 10 }.startCalls
          (.recordLimit "tell" 0) call ∧
        call.reply.context.log = .empty := by
  obtain ⟨r, hreachable⟩ := reachable_stoppingReady
  obtain ⟨r', hr'⟩ : ∃ r, (Payload.ofTransfer none ⟨none, 1⟩).encode = .ok r :=
    ⟨_, Payload.encode_eq_ok rfl⟩
  obtain ⟨hcall, hcalls⟩ := Wasm.call_stopping r
  have hentry : checkEntryPoint (stoppingReady r (pagesLog 1)).declared "main" = .ok () := rfl
  have hfails : (stoppingReady r (pagesLog 1)).invoke "main" =
      (.error (.trapped Wasm.Trap.unreachable.message),
        { stoppingReady r (pagesLog 2) with state := .faulted }) := by
    have hopened := (call_takeLog (d := stoppingReady r (pagesLog 1)) rfl
      (Wasm.stoppingInstance ⟨r, pagesLog 1, .standard⟩) "main").trans hcall
    rw [invoke_eq_callIn rfl rfl hentry, callIn, hopened]
    rfl
  constructor
  · obtain ⟨i, i', hi, _, hcaused, _⟩ :=
      (invoke_error_cause hreachable).1 "main" _ _ rfl hentry hfails
    cases hi
    have hsame : ((Wasm.stoppingInstance ⟨r, pagesLog 1, .standard⟩).holding .empty).hostCalls
        "main" = [⟨Wasm.tell, .new r .standard, .zeros 0, [2]⟩] := hcalls
    rw [hsame] at hcaused
    exact ⟨r, _, hfails, hcaused⟩
  · obtain ⟨left, hrefused⟩ := instantiate_tightLinked hr'
    obtain ⟨_, hindex, hcaused, hstops⟩ := (invoke_error_cause reachable_tightLinked).2 _ r'
      Wasm.stopping _ _ _ (Or.inl rfl) hr' rfl (Wasm.prepare_stopping _) hrefused
    obtain ⟨call, hcall, hleft, _⟩ := hstops _ rfl
    cases hindex
    have hlog := congrArg Context.log (hleft.symm.trans (congrArg Wasm.Halt.context
      (runStart_tight r')))
    exact ⟨r', left, call, hrefused, hcall, hlog⟩

end ContractHost.Driver
