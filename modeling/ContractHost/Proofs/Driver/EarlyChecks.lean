import ContractHost.Proofs.Driver.FailureCause
import ContractHost.Proofs.Wasm.Arity

/-!
# Checks that are made early

Before a guest is called its module was found to export a memory, its imports to have the signatures
of the host functions, and its entry point to be an exported function without parameters and
results.  The engine looks at all that again, but it never finds anything: there is no error of a
missing memory, nor one of a wrong number of arguments; and an entry point that was accepted is
called.  So an error of the entry point is always the answer of the early check, and then nothing
was called (`Driver.errors_of_early_checks`).
-/

namespace ContractHost

/-- Whether the error says that a host function was given another number of arguments than it
declares. -/
def HostError.isArity : HostError → Bool
  | arity _ _ _ => true
  | _ => false

/-- Whether the error is one that the early checks forestall: that of a missing memory, or that of a
wrong number of arguments. -/
def SandboxError.isForestalled : SandboxError → Bool
  | memory _ => true
  | host e => e.isArity
  | _ => false

/-- Whether the error says that the entry point is no function that can be called. -/
def SandboxError.isOfEntry : SandboxError → Bool
  | exportNotFound _ | entryPointSignature _ _ => true
  | _ => false

/-- The error is neither of these. -/
structure SandboxError.IsOrdinary (e : SandboxError) : Prop where
  /-- It is not one that the early checks forestall. -/
  isForestalled : e.isForestalled = false
  /-- It is not one of the entry point. -/
  isOfEntry : e.isOfEntry = false

/-- An entry point that is rejected is rejected with an error of its own. -/
lemma isOfEntry_of_checkEntryPoint {declared : List ExportDecl} {entry : String} {e : SandboxError}
    (h : checkEntryPoint declared entry = .error e) :
    e.isOfEntry = true ∧ e.isForestalled = false := by
  unfold checkEntryPoint at h
  split at h
  · cases h
    exact ⟨rfl, rfl⟩
  · split at h
    · cases h
    · cases h
      exact ⟨rfl, rfl⟩

/-! ## The functions of the bridge -/

namespace Bridge

variable {context : Context} {memory : Memory} {e : HostError}

/-- No record is refused for the number of arguments of the call that it was made for. -/
lemma isArity_of_record {function : String} {r : Record}
    (h : context.record function r = .error e) : e.isArity = false := by
  obtain ⟨_, rfl | rfl⟩ := Context.record_eq_error h
  · rfl
  · rfl

/-- No transaction is refused for the number of arguments. -/
lemma isArity_of_transactionRecord {tagAt tagLength payloadAt payloadLength : Int32}
    (h : transactionRecord memory tagAt tagLength payloadAt payloadLength = .error e) :
    e.isArity = false := by
  rcases transactionRecord_eq_error h with ⟨_, rfl⟩ | rfl
  · rfl
  · rfl

/-- No diagnostic is refused for the number of arguments. -/
lemma isArity_of_diagnosticRecord {messageAt messageLength : Int32}
    (h : diagnosticRecord memory messageAt messageLength = .error e) : e.isArity = false := by
  obtain ⟨_, rfl⟩ := diagnosticRecord_eq_error h
  rfl

/-- A record is not emitted because it cannot be made, or for the limits. -/
lemma isArity_of_emit {function : String} {made : Except HostError Record}
    (hmade : ∀ e, made = .error e → e.isArity = false)
    (h : (emit function context memory made).result = .error e) : e.isArity = false := by
  rcases emit_cases function context memory made with
    ⟨e', hemit, hnone | ⟨r, hfull⟩⟩ | ⟨_, _, _, _, hemit⟩
  · rw [hemit] at h
    cases h
    exact hmade e hnone
  · rw [hemit] at h
    cases h
    exact isArity_of_record hfull
  · rw [hemit] at h
    cases h

/-- A function of the bridge that is given as many arguments as it declares never complains of
their number. -/
lemma HostFunction.isArity_of_run {f : HostFunction} {arguments : List Int32}
    (hlength : arguments.length = f.binding.signature.params)
    (h : (f.run context memory arguments).result = .error e) : e.isArity = false := by
  cases f with
  | reasonLen =>
    obtain rfl : arguments = [] := List.length_eq_zero_iff.1 hlength
    change context.reasonLength.map some = .error e at h
    unfold Context.reasonLength at h
    split at h
    · cases h
    · cases h
      rfl
  | reason =>
    obtain ⟨destination, rfl⟩ := List.length_eq_one_iff.1 hlength
    change (Bridge.reason context memory [destination]).result = .error e at h
    unfold Bridge.reason at h
    dsimp only at h
    split at h
    · cases h
    · cases h
      rfl
  | sendTransaction =>
    match arguments, hlength with
    | [tagAt, tagLength, payloadAt, payloadLength], _ =>
      exact isArity_of_emit (fun _ => isArity_of_transactionRecord) h
  | error =>
    match arguments, hlength with
    | [messageAt, messageLength], _ =>
      exact isArity_of_emit (fun _ => isArity_of_diagnosticRecord) h

end Bridge

/-! ## Instances -/

namespace Wasm

/-- If host functions do not complain of the number of their arguments, an error that they and the
fuel cause is an ordinary one. -/
lemma Caused.isOrdinary {calls : List HostCall} {runsOut : Prop} {e : SandboxError}
    (h : Caused calls runsOut e)
    (hcalls : ∀ call ∈ calls, ∀ error, call.reply.result = .error error → error.isArity = false) :
    e.IsOrdinary := by
  rcases h.kinds with ⟨error, rfl⟩ | rfl | ⟨t, rfl⟩
  · obtain ⟨call, hcall, hresult⟩ := (h.host_iff error).1 rfl
    exact ⟨hcalls call hcall error hresult, rfl⟩
  · exact ⟨rfl, rfl⟩
  · exact ⟨rfl, rfl⟩

namespace Instance

variable {budget : Budget} {m : Module} {bs : List Binding} {context : Context}
  {description : Description} {i : Instance} {call : HostCall} {error : HostError}
  {e : SandboxError}

/-- Data that are not put into a memory are a trap. -/
lemma isOrdinary_of_fill {data : List DataSegment} {memory : Memory}
    (h : fill data memory = .error e) : e.IsOrdinary := by
  induction data generalizing memory with
  | nil => cases h
  | cons d data ih =>
    unfold fill at h
    split at h
    · exact ih h
    · cases h
      exact ⟨rfl, rfl⟩

/-- Functions that are not found are none that a memory or an entry point is missing for. -/
lemma isOrdinary_of_resolveImports (h : resolveImports m bs = .error e) : e.IsOrdinary := by
  unfold resolveImports at h
  split at h
  · cases h
    exact ⟨rfl, rfl⟩
  · obtain ⟨decl, _, hnone⟩ := exists_of_mapM_eq_error h
    unfold bindingFor at hnone
    split at hnone
    · cases hnone
      exact ⟨rfl, rfl⟩
    · split at hnone
      · cases hnone
      · cases hnone
        exact ⟨rfl, rfl⟩

/-- A memory that is not made is too large. -/
lemma isOrdinary_of_newMemory (h : newMemory m budget = .error e) : e.IsOrdinary := by
  unfold newMemory at h
  dsimp only at h
  split at h
  · cases h
  · cases h
    exact ⟨rfl, rfl⟩

/-- An instance that does not get ready to start is not ready for its imports, its memory or its
data. -/
lemma isOrdinary_of_prepare (h : prepare budget m bs context = .error e) : e.IsOrdinary := by
  unfold prepare at h
  rcases bind_eq_error_iff.1 h with himports | ⟨_, _, h⟩
  · exact isOrdinary_of_resolveImports himports
  rcases bind_eq_error_iff.1 h with hmemory | ⟨_, _, h⟩
  · exact isOrdinary_of_newMemory hmemory
  rcases bind_eq_error_iff.1 h with hfill | ⟨_, _, h⟩
  · exact isOrdinary_of_fill hfill
  · cases h

/-- The functions that are called when an instance starts are imports. -/
lemma mem_imports_of_mem_startCalls (h : call ∈ i.startCalls) :
    call.binding ∈ i.program.imports := by
  unfold startCalls at h
  split at h
  · cases h
  next index _ =>
    unfold Program.startCalls at h
    split at h
    next b hb =>
      rw [List.mem_singleton.1 h]
      exact Program.mem_imports_of_callee? hb
    · exact Program.mem_imports_of_mem_exportCalls _ _ _ _ _ call h

/-- An instance that imports only functions of the bridge, and gives them as many arguments as they
declare, is not told that their number is wrong. -/
lemma OnBridge.isArity_of_reply (h : i.OnBridge) (himport : call.binding ∈ i.program.imports)
    (hfull : call.IsFull) (hrefused : call.reply.result = .error error) :
    error.isArity = false := by
  obtain ⟨f, hf⟩ := h _ himport
  obtain ⟨binding, context, memory, arguments⟩ := call
  obtain rfl : binding = f.binding := hf
  exact Bridge.HostFunction.isArity_of_run hfull hrefused

/-- An instance that is not made for a compiled module, linked with the bridge, is not made for an
ordinary reason. -/
lemma isOrdinary_of_new (hexports : m.exportsMemory = true)
    (hcompile : description.compile = some m)
    (hlink : Bridge.registry.link m.imports = .ok bs)
    (h : new budget m bs context = .error e) : e.IsOrdinary := by
  have hnew := h
  unfold new at hnew
  rcases bind_eq_error_iff.1 hnew with hprepare | ⟨made, hmade, _⟩
  · exact isOrdinary_of_prepare hprepare
  · obtain ⟨_, _, hcaused, _⟩ := caused_of_start (start_of_new_error hmade hexports h)
    have hof := madeOf_prepare hmade
    exact hcaused.isOrdinary fun call hcall error hrefused =>
      (hof.onBridge hlink).isArity_of_reply (mem_imports_of_mem_startCalls hcall)
        (hof.isFull_of_mem_startCalls hcompile hcall) hrefused

/-- Such an instance refuses an accepted entry point for an ordinary reason only. -/
lemma MadeOf.isOrdinary_of_call {name : String} {index : Nat} {i' : Instance}
    (hof : i.MadeOf budget m bs) (hcompile : description.compile = some m)
    (hlink : Bridge.registry.link m.imports = .ok bs)
    (hindex : i.module.exportedFunction? name = some index)
    (htype : functionType i.module index = .function entrySignature)
    (h : i.call name = (.error e, i')) : e.IsOrdinary := by
  obtain ⟨hcaused, _⟩ := caused_of_call hindex htype h
  exact hcaused.isOrdinary fun call hcall error hrefused =>
    (hof.onBridge hlink).isArity_of_reply (i.mem_imports_of_mem_hostCalls name call hcall)
      (hof.isFull_of_mem_hostCalls hcompile hcall) hrefused

end Instance

end Wasm

/-! ## Drivers -/

namespace Driver

variable {d d' : Driver Wasm.Source Wasm.Module Wasm.Instance} {budget : Wasm.Budget}
  {engine : Engine Wasm.Source Wasm.Module Wasm.Instance} {config : Config}
  {use : Use Wasm.Source} {entry : String} {e : SandboxError} {σ : Type}

/-- The module of the driver was compiled by the engine, and linked with the bridge. -/
structure Checked (budget : Wasm.Budget) (d : Driver Wasm.Source Wasm.Module Wasm.Instance) :
    Prop where
  /-- The engine is that of the budget. -/
  engine_eq : d.engine = Wasm.engine budget
  /-- The module was compiled, and exports its memory. -/
  compiled : ∀ m, d.module = some m →
    m.exportsMemory ∧ ∃ description : Wasm.Description, description.compile = some m
  /-- The functions are those of the bridge for the imports of the module. -/
  linked : ∀ m, d.module = some m → Bridge.registry.link m.imports = .ok d.linked

/-- A driver of the bridge that has linked its module has checked it. -/
lemma Reachable.checked (h : Reachable (Wasm.engine budget) Bridge.registry config d)
    (hlinked : d.IsLinked) : d.Checked budget := by
  obtain ⟨hengine, hregistry, _, hcoherent⟩ := h.coherent
  refine ⟨hengine, fun m hm => h.compiled hm, fun m hm => ?_⟩
  have hlink := hcoherent.linked_eq hlinked m hm
  rw [hengine, hregistry] at hlink
  exact hlink

/-- What the state does not allow is refused with an ordinary error. -/
lemma isOrdinary_refusal (d : Driver Wasm.Source Wasm.Module Wasm.Instance)
    (operation : Operation) : (d.refusal operation).IsOrdinary := by
  unfold refusal
  split
  · exact ⟨rfl, rfl⟩
  · exact ⟨rfl, rfl⟩

/-- Loading fails with an ordinary error, if compiling does. -/
lemma isOrdinary_of_loadWith {compiled : Unit → Except SandboxError Wasm.Module}
    (hcompiled : ∀ e, compiled () = .error e → e.IsOrdinary)
    (h : (d.loadWith compiled).1 = .error e) : e.IsOrdinary := by
  unfold loadWith at h
  split at h
  · split at h
    next hfails =>
      cases h
      exact hcompiled e hfails
    · cases h
  · cases h
    exact d.isOrdinary_refusal .load

/-- A file that is no module is refused with an ordinary error. -/
lemma isOrdinary_of_ofSource {source : Wasm.Source} (h : Wasm.Module.ofSource source = .error e) :
    e.IsOrdinary := by
  unfold Wasm.Module.ofSource at h
  split at h
  · cases h
    exact ⟨rfl, rfl⟩
  · split at h
    · cases h
    · cases h
      exact ⟨rfl, rfl⟩

/-- A file that cannot be read or is no module is refused with an ordinary error. -/
lemma isOrdinary_of_compileFile {file : Option Wasm.Source}
    (h : (Wasm.engine budget).compileFile file = .error e) : e.IsOrdinary := by
  cases file with
  | none =>
    cases h
    exact ⟨rfl, rfl⟩
  | some source => exact isOrdinary_of_ofSource h

/-- Linking fails with an ordinary error. -/
lemma isOrdinary_of_link (h : d.link.1 = .error e) : e.IsOrdinary := by
  unfold link at h
  split at h
  · split at h
    · cases h
      exact ⟨rfl, rfl⟩
    · split at h
      · cases h
        exact ⟨rfl, rfl⟩
      · cases h
  · cases h
    exact d.isOrdinary_refusal .link

/-- Making an instance fails with an ordinary error. -/
lemma Checked.isOrdinary_of_spawn (h : d.Checked budget) (hfails : d.spawn.1 = .error e) :
    e.IsOrdinary := by
  unfold spawn at hfails
  split at hfails
  next m r hm _ =>
    obtain ⟨hexports, description, hcompile⟩ := h.compiled m hm
    split at hfails
    next hmake =>
      cases hfails
      rw [h.engine_eq] at hmake
      exact Wasm.Instance.isOrdinary_of_new hexports hcompile (h.linked m hm) hmake
    · cases hfails
  · cases hfails
    exact ⟨rfl, rfl⟩

/-- Instantiating fails with an ordinary error. -/
lemma Reachable.isOrdinary_of_instantiate
    (h : Reachable (Wasm.engine budget) Bridge.registry config d) {p : Payload}
    (hfails : (d.instantiate p).1 = .error e) : e.IsOrdinary := by
  unfold instantiate at hfails
  split at hfails
  next hstate =>
    split at hfails
    · cases hfails
      exact ⟨rfl, rfl⟩
    next r _ =>
      obtain ⟨hengine, hcompiled, hlinked⟩ := h.checked (Coherent.isLinked_of_state hstate)
      have hrebound : (d.rebind (some r)).Checked budget := ⟨hengine, hcompiled, hlinked⟩
      exact hrebound.isOrdinary_of_spawn hfails
  · cases hfails
    exact d.isOrdinary_refusal .instantiate

/-- In a call with any open log an accepted entry point fails with an ordinary error. -/
lemma Reachable.isOrdinary_of_call {i : Wasm.Instance}
    (h : Reachable (Wasm.engine budget) Bridge.registry config d) (hguest : d.guest = some i)
    (hentry : checkEntryPoint d.declared entry = .ok ()) {log : Log}
    (hfails : ((i.holding log).call entry).1 = .error e) : e.IsOrdinary := by
  obtain ⟨_, _, _, hcoherent⟩ := h.coherent
  have hlinked := hcoherent.isLinked_of_guest (Option.isSome_of_eq_some hguest)
  obtain ⟨m, hm⟩ := hcoherent.exists_module hlinked.1
  obtain ⟨_, hcompiled, hlink⟩ := h.checked hlinked
  obtain ⟨_, description, hcompile⟩ := hcompiled m hm
  obtain ⟨index, hindex, htype⟩ := h.exists_exported hguest hentry
  exact ((h.madeOf hm hguest).holding log).isOrdinary_of_call hcompile (hlink m hm) hindex htype
    (Prod.ext hfails rfl)

/-- A call fails with an ordinary error, or the early check rejects the entry point, and then
nothing changes but the state. -/
lemma Reachable.invoke_error (h : Reachable (Wasm.engine budget) Bridge.registry config d)
    (hfails : d.invoke entry = (.error e, d')) :
    e.IsOrdinary ∨
      checkEntryPoint d.declared entry = .error e ∧ d' = { d with state := .faulted } := by
  obtain ⟨hengine, _, _, hcoherent⟩ := h.coherent
  cases hcoherent.called hfails with
  | refused _ => exact Or.inl (d.isOrdinary_refusal .invoke)
  | rejected _ hentry => exact Or.inr ⟨hentry, rfl⟩
  | @failed i i' _ hready hentry hguest hcall =>
    rw [call_takeLog hengine] at hcall
    exact Or.inl (h.isOrdinary_of_call hguest hentry (congrArg Prod.fst hcall))

/-- An iteration fails with an ordinary error, or the early check rejects the entry point, and then
nothing was done but to open an instance. -/
lemma Reachable.iterate_error (h : Reachable (Wasm.engine budget) Bridge.registry config d)
    (hfails : d.iterate entry = (.error e, d')) :
    e.IsOrdinary ∨
      checkEntryPoint d.declared entry = .error e ∧ d' = { d.opened with state := .faulted } := by
  rcases d.iterate_cases entry with ⟨e', hready, hspawn, hiterate⟩ | hiterate
  · cases hiterate.symm.trans hfails
    have hchecked := h.checked (Coherent.isLinked_of_state (Or.inr hready))
    exact Or.inl (hchecked.isOrdinary_of_spawn (congrArg Prod.fst hspawn))
  · have hdeclared : d.opened.declared = d.declared := (opened_follows d).declared_eq
    rw [← hdeclared]
    exact h.opened.invoke_error (hiterate.symm.trans hfails)

/-- An iteration that succeeds is one of an entry point that is accepted. -/
lemma Reachable.checkEntryPoint_of_iterate {log : Log}
    (h : Reachable (Wasm.engine budget) Bridge.registry config d)
    (hok : d.iterate entry = (.ok log, d')) : checkEntryPoint d.declared entry = .ok () := by
  rcases d.iterate_cases entry with ⟨e, _, _, hiterate⟩ | hiterate
  · cases hiterate.symm.trans hok
  · have hdeclared : d.opened.declared = d.declared := (opened_follows d).declared_eq
    obtain ⟨_, _, _, hcoherent⟩ := h.opened.coherent
    cases hcoherent.called (hiterate.symm.trans hok) with
    | returned _ hentry _ _ => exact hdeclared ▸ hentry

/-- A run fails with an ordinary error, or the early check rejects the entry point in the first
iteration, and then nothing was handed to the sink and nothing done but to open an instance. -/
lemma Reachable.runWith_error (h : Reachable (Wasm.engine budget) Bridge.registry config d)
    (sink : σ → Log → σ) (n : Nat) (s : σ) (records : Nat)
    (hfails : (runWith sink entry n s records d).result = .error e) :
    e.IsOrdinary ∨ checkEntryPoint d.declared entry = .error e ∧
      runWith sink entry n s records d =
        ⟨.error e, s, records, { d.opened with state := .faulted }⟩ := by
  induction n generalizing d s records with
  | zero => cases hfails
  | succ n ih =>
    rcases hcall : d.iterate entry with ⟨e' | log, left⟩
    · rw [runWith_of_error hcall] at hfails ⊢
      cases hfails
      rcases h.iterate_error hcall with hordinary | ⟨hentry, rfl⟩
      · exact Or.inl hordinary
      · exact Or.inr ⟨hentry, rfl⟩
    · have hleft : Reachable (Wasm.engine budget) Bridge.registry config left := by
        have hreachable := h.iterate entry
        rw [hcall] at hreachable
        exact hreachable
      have hdeclared : left.declared = d.declared := by
        have hfollows := iterate_follows d entry
        rw [hcall] at hfollows
        exact hfollows.declared_eq
      rw [runWith_of_ok hcall] at hfails
      rcases ih hleft _ _ hfails with hordinary | ⟨hentry, _⟩
      · exact Or.inl hordinary
      · -- The entry point was accepted in this iteration, and so it would be in all others.
        rw [hdeclared, h.checkEntryPoint_of_iterate hcall] at hentry
        cases hentry

/-- A run that cannot be reported is one that fails. -/
lemma result_of_runRepeated_eq_error {n : UInt64} (h : (d.runRepeated entry n).1 = .error e) :
    (d.runRepeatedWith entry n (RunReport.add d.config.runLogLimits) ⟨n, 0, .empty⟩).result =
      .error e := by
  unfold runRepeated at h
  dsimp only at h
  split at h
  next hfails =>
    cases h
    exact hfails
  · cases h

/-- Whatever a driver is asked fails with an ordinary error, or the early check rejects the entry
point, and then nothing was called. -/
lemma Reachable.answer_error (h : Reachable (Wasm.engine budget) Bridge.registry config d)
    (hfails : d.answer use = .error e) :
    e.IsOrdinary ∨ ∃ entry, checkEntryPoint d.declared entry = .error e ∧
      (use = .invoke entry ∧ d.after use = { d with state := .faulted } ∨
        ∃ n, use = .runRepeated entry n ∧ d.after use = { d.opened with state := .faulted }) := by
  have hengine := h.coherent.1
  cases use with
  | load source =>
    refine Or.inl (isOrdinary_of_loadWith (fun e' he' => ?_) hfails)
    rw [hengine] at he'
    exact isOrdinary_of_ofSource he'
  | loadFile file =>
    refine Or.inl (isOrdinary_of_loadWith (fun e' he' => ?_) hfails)
    rw [hengine] at he'
    exact isOrdinary_of_compileFile he'
  | link => exact Or.inl (isOrdinary_of_link hfails)
  | instantiate payload => exact Or.inl (h.isOrdinary_of_instantiate hfails)
  | invoke entry =>
    have hinvoke : d.invoke entry = (.error e, d.after (.invoke entry)) :=
      Prod.ext (map_eq_error_iff.1 hfails) rfl
    rcases h.invoke_error hinvoke with hordinary | ⟨hentry, hleft⟩
    · exact Or.inl hordinary
    · exact Or.inr ⟨entry, hentry, Or.inl ⟨rfl, hleft⟩⟩
  | runRepeated entry n =>
    have hresult := result_of_runRepeated_eq_error (map_eq_error_iff.1 hfails)
    rcases h.runWith_error _ _ _ _ hresult with hordinary | ⟨hentry, hrun⟩
    · exact Or.inl hordinary
    · refine Or.inr ⟨entry, hentry, Or.inr ⟨n, rfl, ?_⟩⟩
      rw [Driver.after, driver_runRepeated]
      exact congrArg Run.driver hrun
  | writeMemory offset data =>
    have hwrite := map_eq_error_iff.1 hfails
    unfold writeMemory at hwrite
    split at hwrite
    · cases hwrite
      exact Or.inl ⟨rfl, rfl⟩
    · split at hwrite
      · cases hwrite
      · cases hwrite

/-- A driver of the bridge, under settings that are accepted, never answers with an error that the
early checks forestall, whatever was done with it before: not in an operation, nor in a run with any
sink, nor when its memory is asked for.  An entry point that it accepts is accepted by the engine as
well, in a call with any open log; so one that the engine would refuse is always rejected by the
early check before.  An error of the entry point is therefore always that of the early check: then a
call changes nothing but the state, and the instance is the very same; and a run was in its first
iteration, had handed nothing to its sink, and had done nothing but to open the instance that the
iteration was to call. -/
theorem errors_of_early_checks (hengine : Wasm.engineFor config = .ok engine)
    (h : Reachable engine Bridge.registry config d) :
    ((∀ use e, d.answer use = .error e → e.isForestalled = false) ∧
      (∀ (σ : Type) (sink : σ → Log → σ) entry n start e,
        (d.runRepeatedWith entry n sink start).result = .error e → e.isForestalled = false) ∧
      ∀ e, d.memory = .error e → e.isForestalled = false ∧ e.isOfEntry = false) ∧
    (∀ i log entry, d.guest = some i →
      (checkEntryPoint d.declared entry = .ok () →
        (∃ index, i.module.exportedFunction? entry = some index ∧
          Wasm.Instance.functionType i.module index = .function entrySignature) ∧
        ∀ e, ((i.holding log).call entry).1 = .error e → e.isOfEntry = false) ∧
      ∀ e, ((i.holding log).call entry).1 = .error e → e.isOfEntry = true →
        ∃ e', checkEntryPoint d.declared entry = .error e' ∧
          (d.state = .ready → d.invoke entry = (.error e', { d with state := .faulted }))) ∧
    (∀ use e, d.answer use = .error e → e.isOfEntry = true →
      ∃ entry, checkEntryPoint d.declared entry = .error e ∧
        (use = .invoke entry ∧ d.after use = { d with state := .faulted } ∨
          ∃ n, use = .runRepeated entry n ∧ d.after use = { d.opened with state := .faulted })) ∧
    ∀ (σ : Type) (sink : σ → Log → σ) entry n start e,
      (d.runRepeatedWith entry n sink start).result = .error e → e.isOfEntry = true →
        checkEntryPoint d.declared entry = .error e ∧
          d.runRepeatedWith entry n sink start =
            ⟨.error e, start, 0, { d.opened with state := .faulted }⟩ := by
  obtain ⟨rfl, _⟩ := Wasm.engineFor_eq_ok hengine
  refine ⟨⟨fun use e hfails => ?_, fun σ sink entry n start e hfails => ?_, fun e hfails => ?_⟩,
    fun i log entry hguest => ?_, fun use e hfails hofEntry => ?_,
    fun σ sink entry n start e hfails hofEntry => ?_⟩
  · rcases h.answer_error hfails with hordinary | ⟨entry, hentry, _⟩
    · exact hordinary.isForestalled
    · exact (isOfEntry_of_checkEntryPoint hentry).2
  · rcases h.runWith_error sink n.toNat start 0 hfails with hordinary | ⟨hentry, _⟩
    · exact hordinary.isForestalled
    · exact (isOfEntry_of_checkEntryPoint hentry).2
  · unfold memory at hfails
    split at hfails
    · cases hfails
    · cases hfails
      exact ⟨rfl, rfl⟩
  · have haccepts : checkEntryPoint d.declared entry = .ok () →
        ∀ e, ((i.holding log).call entry).1 = .error e → e.isOfEntry = false :=
      fun hentry e hrefuses => (h.isOrdinary_of_call hguest hentry hrefuses).isOfEntry
    refine ⟨fun hentry => ⟨h.exists_exported hguest hentry, haccepts hentry⟩,
      fun e hrefuses hofEntry => ?_⟩
    rcases hentry : checkEntryPoint d.declared entry with e' | _
    · exact ⟨e', rfl, fun hready => invoke_of_entry_error hready hentry⟩
    · rw [haccepts hentry e hrefuses] at hofEntry
      cases hofEntry
  · rcases h.answer_error hfails with hordinary | hrejected
    · rw [hordinary.isOfEntry] at hofEntry
      cases hofEntry
    · exact hrejected
  · rcases h.runWith_error sink n.toNat start 0 hfails with hordinary | hrejected
    · rw [hordinary.isOfEntry] at hofEntry
      cases hofEntry
    · exact hrejected

/-- A module that exports its memory, and nothing else. -/
def onlyMemory : Wasm.Description :=
  { Wasm.Description.empty with
    memories := [⟨0, none⟩]
    exports := [⟨Wasm.memoryExportName, .memory, 0⟩] }

/-- The driver of the bridge with an instance of the module. -/
def onlyMemoryReady : Driver Wasm.Source Wasm.Module Wasm.Instance :=
  (Driver.new (Wasm.engine (.ofConfig .standard)) Bridge.registry .standard).afterAll
    [.load (.description onlyMemory), .link, .instantiate (.ofTransfer none ⟨none, 1⟩)]

/-- The engine would not find the memory among the functions; but it is not asked, since the early
check finds an export that is no function.  The instance is not touched, and a run is over before
its sink is handed anything. -/
theorem errors_of_early_checks_onlyMemory :
    Wasm.engineFor .standard = .ok (Wasm.engine (.ofConfig .standard)) ∧
      Reachable (Wasm.engine (.ofConfig .standard)) Bridge.registry .standard onlyMemoryReady ∧
      ∃ i e, onlyMemoryReady.guest = some i ∧
        ((i.holding .empty).call "memory").1 = .error (.exportNotFound "memory") ∧
        checkEntryPoint onlyMemoryReady.declared "memory" = .error e ∧
        onlyMemoryReady.invoke "memory" =
          (.error e, { onlyMemoryReady with state := .faulted }) := by
  have hengine : Wasm.engineFor .standard = .ok (Wasm.engine (.ofConfig .standard)) := rfl
  have hnew : Reachable (Wasm.engine (.ofConfig .standard)) Bridge.registry .standard
      (Driver.new (Wasm.engine (.ofConfig .standard)) Bridge.registry .standard) := .new
  have hreachable := hnew.afterAll
    [.load (.description onlyMemory), .link, .instantiate (.ofTransfer none ⟨none, 1⟩)]
  have hready : onlyMemoryReady.state = .ready := by decide +kernel
  obtain ⟨_, hguests, _⟩ := errors_of_early_checks hengine hreachable
  obtain ⟨i, hi⟩ : ∃ i, onlyMemoryReady.guest = some i :=
    Option.isSome_iff_exists.1 (hreachable.coherent.2.2.2.guest_isSome.2 (Or.inl hready))
  have hdescription : onlyMemoryReady.module.map Wasm.Module.description = some onlyMemory := by
    decide +kernel
  obtain ⟨m, hm, hmemory⟩ := Option.map_eq_some_iff.1 hdescription
  have hnone : i.module.exportedFunction? "memory" = none := by
    rw [(hreachable.madeOf hm hi).module_eq, Wasm.Module.exportedFunction?, hmemory]
    decide
  have hrefuses : ((i.holding .empty).call "memory").1 = .error (.exportNotFound "memory") := by
    have hheld : (i.holding .empty).module.exportedFunction? "memory" = none := hnone
    simp only [Wasm.Instance.call, hheld]
  obtain ⟨e, hentry, hinvoke⟩ := (hguests i .empty "memory" hi).2 _ hrefuses rfl
  exact ⟨hengine, hreachable, i, e, hi, hrefuses, hentry, hinvoke hready⟩

end Driver

end ContractHost
