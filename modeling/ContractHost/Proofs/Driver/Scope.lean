import ContractHost.Proofs.Driver.NewInstance

/-!
# The log of a call

A call has a log of its own: it starts empty, whatever the instance had recorded before, and after a
call that succeeds it is handed out and empty again.  For a guest of WebAssembly, what is handed out
is what the host functions made of the empty log that the guest called during the call
(`Driver.invoke_scope`).
-/

namespace ContractHost

namespace Wasm.Instance

/-- The instance with another open log. -/
def holding (i : Instance) (log : Log) : Instance :=
  { i with context := { i.context with log := log } }

end Wasm.Instance

namespace Driver

variable {d d' : Driver Wasm.Source Wasm.Module Wasm.Instance} {budget : Wasm.Budget}
  {i : Wasm.Instance} {entry : String} {log : Log}

/-! ## Calls and the log that was open -/

/-- A call of an entry point that there is, is one of the instance. -/
lemma invoke_eq_callIn (hready : d.state = .ready) (hguest : d.guest = some i)
    (hentry : checkEntryPoint d.declared entry = .ok ()) : d.invoke entry = d.callIn i entry := by
  simp only [invoke, hready, if_true, hentry, hguest]

/-- A call of an entry point that there is not, does not look at the instance. -/
lemma invoke_of_entry_error {e : SandboxError} (hready : d.state = .ready)
    (hentry : checkEntryPoint d.declared entry = .error e) :
    d.invoke entry = (.error e, { d with state := .faulted }) := by
  simp only [invoke, hready, if_true, hentry]

/-- A call does not look at the log that was open. -/
lemma callIn_holding (hengine : d.engine = Wasm.engine budget) (held : Log) :
    { d with guest := some (i.holding held) }.callIn (i.holding held) entry =
      d.callIn i entry := by
  obtain ⟨engine, registry, config, state, module, declared, linked, reason, guest⟩ := d
  subst hengine
  rfl

/-- A call in an empty log is one of the instance that holds it. -/
lemma call_takeLog (hengine : d.engine = Wasm.engine budget) (i : Wasm.Instance) (entry : String) :
    d.engine.call (d.engine.takeLog i).2 entry = (i.holding .empty).call entry := by
  rw [hengine]
  rfl

/-- The open log of a driver is that of its instance. -/
lemma currentLog_of_guest (hengine : d.engine = Wasm.engine budget) (hguest : d.guest = some i) :
    d.currentLog = some i.context.log := by
  rw [currentLog, hguest, hengine]
  rfl

/-- A log that was handed out leaves an empty one open. -/
lemma currentLog_of_takeLog (hengine : d.engine = Wasm.engine budget)
    (hguest : d.guest = some (d.engine.takeLog i).2) : d.currentLog = some .empty := by
  rw [currentLog, hguest, hengine]
  rfl

/-- A call that succeeds hands out the log that the instance is left with, having started with an
empty one, and leaves an empty one. -/
lemma callIn_eq_ok (hengine : d.engine = Wasm.engine budget)
    (h : d.callIn i entry = (.ok log, d')) :
    log = ((i.holding .empty).call entry).2.context.log ∧ d'.currentLog = some .empty := by
  simp only [callIn, call_takeLog hengine] at h
  rcases hresult : (i.holding .empty).call entry with ⟨_ | _, i'⟩
  · rw [hresult] at h
    cases h
  · rw [hresult] at h
    cases h
    refine ⟨?_, currentLog_of_takeLog hengine rfl⟩
    rw [hengine]
    rfl

/-- A call of a ready driver that succeeds hands out the log that its host functions made of an
empty one, each given the context that the one before left.  If they only add records, these are
what the calls added, in order; and they do if the functions that the guest imports never do
anything else.  After that the open log is empty.  The answer does not depend on the log that was
open before, and neither does the driver that is left, unless the entry point is refused and that
log stays. -/
theorem invoke_scope (hengine : d.engine = Wasm.engine budget) (hready : d.state = .ready)
    (hguest : d.guest = some i) (entry : String) :
    (∀ log d', d.invoke entry = (.ok log, d') →
        (∃ context, Wasm.HostCall.Threads i.context.clearLog
            ((i.holding .empty).hostCalls entry) context ∧ log = context.log) ∧
        (∀ added, List.Forall₂ Wasm.HostCall.Adds ((i.holding .empty).hostCalls entry) added →
          log = .ofList added.flatten) ∧
        ((∀ b ∈ i.program.imports, b.OnlyAdds) →
          ∃ added, List.Forall₂ Wasm.HostCall.Adds ((i.holding .empty).hostCalls entry) added) ∧
        d'.currentLog = some .empty) ∧
      ∀ held : Log,
        ({ d with guest := some (i.holding held) }.invoke entry).1 = (d.invoke entry).1 ∧
        (checkEntryPoint d.declared entry = .ok () →
          { d with guest := some (i.holding held) }.invoke entry = d.invoke entry) := by
  have hsame : checkEntryPoint d.declared entry = .ok () → ∀ held : Log,
      { d with guest := some (i.holding held) }.invoke entry = d.invoke entry := by
    intro hentry held
    rw [invoke_eq_callIn hready hguest hentry, ← callIn_holding hengine held]
    refine invoke_eq_callIn ?_ rfl ?_
    · exact hready
    · exact hentry
  rcases hentry : checkEntryPoint d.declared entry with e | _
  · have hrefused := invoke_of_entry_error hready hentry
    refine ⟨fun log d' hcall => ?_, fun held => ⟨?_, fun hok => ?_⟩⟩
    · rw [hrefused] at hcall
      cases hcall
    · rw [hrefused, invoke_of_entry_error (e := e)]
      · exact hready
      · exact hentry
    · cases hok
  · refine ⟨fun log d' hcall => ?_, fun held => ?_⟩
    · rw [invoke_eq_callIn hready hguest hentry] at hcall
      obtain ⟨hlog, hempty⟩ := callIn_eq_ok hengine hcall
      have hthreads := (i.holding .empty).threads_hostCalls entry
      refine ⟨⟨_, hthreads, hlog⟩, fun added hadded => ?_, fun honly => ?_, hempty⟩
      · rw [hlog]
        exact hthreads.log_eq hadded
      · exact (i.holding .empty).exists_forall₂_adds_hostCalls entry honly
    · have hboth := hsame hentry held
      exact ⟨congrArg Prod.fst hboth, fun _ => hboth⟩

/-- A guest told one page when it started, and that is in the open log.  In the call it tells two
pages, and that alone is handed out; so it would be with any other open log. -/
theorem invoke_scope_growing :
    ∃ r call log d', (growingLinked .reuse).instantiate (.ofTransfer none ⟨none, 1⟩) =
        (.ok (), growingReady .reuse r 1 (pagesLog 1)) ∧
      ((Wasm.growingInstance 1 ⟨r, pagesLog 1, .standard⟩).holding .empty).hostCalls "main" =
        [call] ∧
      call.Adds [Wasm.pagesRecord 2] ∧
      (growingReady .reuse r 1 (pagesLog 1)).invoke "main" = (.ok log, d') ∧
      log = .ofList [Wasm.pagesRecord 2] ∧ d'.currentLog = some .empty ∧
      ∀ held, ((growingReady .reuse r 1 held).invoke "main").1 = .ok log := by
  obtain ⟨r, hr⟩ : ∃ r, (Payload.ofTransfer none ⟨none, 1⟩).encode = .ok r :=
    ⟨_, Payload.encode_eq_ok rfl⟩
  have hmade := @instantiate_growingLinked .reuse _ _ hr
  have hcall := @invoke_growingReady .reuse 1 r (by decide) (pagesLog 1)
  have hcalls := @Wasm.hostCalls_growing 1 r (by decide)
  have hadds : Wasm.HostCall.Adds ⟨Wasm.tell, .new r .standard, .zeros (2 * pageSize), [2]⟩
      [Wasm.pagesRecord 2] := rfl
  have hguest : (growingReady .reuse r 1 (pagesLog 1)).guest =
      some (Wasm.growingInstance 1 ⟨r, pagesLog 1, .standard⟩) := rfl
  have hengine : (growingReady .reuse r 1 (pagesLog 1)).engine =
      Wasm.engine Wasm.growingBudget := rfl
  obtain ⟨hscope, hheld⟩ := invoke_scope hengine rfl hguest "main"
  obtain ⟨_, hadded, _, hempty⟩ := hscope _ _ hcall
  have hlog := hadded [[Wasm.pagesRecord 2]] (hcalls ▸ .cons hadds .nil)
  refine ⟨r, _, _, _, hmade, hcalls, hadds, hcall, hlog, hempty, fun held => ?_⟩
  have hanswer := (hheld held).1
  rw [hcall] at hanswer
  exact hanswer

end Driver

end ContractHost
