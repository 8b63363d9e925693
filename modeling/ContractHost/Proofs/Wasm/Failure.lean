import ContractHost.Proofs.Wasm.Path

/-!
# Why a call ends

A run ends with the error of a host function just if a function that it called answered with that
error (`Machine.stop_eq_refused_iff`), and for want of fuel just if it comes to a place where fuel
is looked at and all of it is burnt (`Machine.stop_eq_fuelExhausted_iff`).  So the error of a call
that fails says what went wrong (`Caused`), and a host function that refuses is the last thing that
the guest does (`StopsIn`).

The error is found by looking through layers.  What the engine puts around it, such as the place
where the guest was, does not change what it is found to be (`Stop.classify_around`).
-/

namespace ContractHost.Wasm

/-! ## Layers of an error -/

section

variable {outer causes : List Cause}

/-- An error is the refusal of a host function just if that is the first refusal in its layers. -/
lemma classify_eq_host_iff {e : HostError} :
    classify causes = .host e ↔ causes.findSome? Cause.host? = some e := by
  unfold classify
  split
  next e' he' => rw [he', SandboxError.host.injEq, Option.some.injEq]
  next hnone =>
    rw [hnone]
    dsimp only
    split <;> simp

/-- Without a refusal it is the want of fuel just if that is the first trap. -/
lemma classify_eq_fuelExhausted_iff (hhost : causes.findSome? Cause.host? = none) :
    classify causes = .fuelExhausted ↔ causes.findSome? Cause.trap? = some .outOfFuel := by
  simp [classify, hhost]

/-- Without a refusal and the want of fuel it is a trap, with the text of the first that is found,
or else the texts of all layers. -/
lemma classify_eq_trap (hhost : causes.findSome? Cause.host? = none)
    (hfuel : causes.findSome? Cause.trap? ≠ some .outOfFuel) :
    classify causes = .trap
      ⟨((causes.findSome? Cause.trap?).map TrapCode.message).getD
        (": ".intercalate (causes.map Cause.text)), causes.findSome? Cause.backtrace?⟩ := by
  simp [classify, hhost, hfuel]

/-- Layers that do not have what is looked for can be left out. -/
lemma findSome?_append_of_none {α : Type} {f : Cause → Option α}
    (houter : ∀ c ∈ outer, f c = none) :
    (outer ++ causes).findSome? f = causes.findSome? f := by
  rw [List.findSome?_append, List.findSome?_eq_none_iff.2 houter, Option.none_or]

/-- Whatever the engine puts around the end of a call, without a refusal or a trap of its own, the
error is that of the end.  A trap of the guest has the message of the end and the first place that
is named; only if there is no trap, as where a result is missing, all texts are in the message. -/
theorem Stop.classify_around (hhost : ∀ c ∈ outer, c.host? = none)
    (htrap : ∀ c ∈ outer, c.trap? = none) :
    (∀ e, classify (outer ++ (Stop.refused e).causes) = .host e) ∧
      classify (outer ++ Stop.fuelExhausted.causes) = .fuelExhausted ∧
      (∀ t ≠ .resultMissing, classify (outer ++ (Stop.trapped t).causes) =
        .trap ⟨t.message, outer.findSome? Cause.backtrace?⟩) ∧
      classify (outer ++ (Stop.trapped .resultMissing).causes) =
        .trap ⟨": ".intercalate (outer.map Cause.text ++ [Trap.resultMissing.message]),
          outer.findSome? Cause.backtrace?⟩ := by
  refine ⟨fun e => ?_, ?_, fun t ht => ?_, ?_⟩
  · rw [classify_eq_host_iff, findSome?_append_of_none hhost]
    rfl
  · rw [classify_eq_fuelExhausted_iff, findSome?_append_of_none htrap]
    · rfl
    · rw [findSome?_append_of_none hhost]
      rfl
  · have hcauses : (Stop.trapped t).causes = [.trap (.guest t)] := by
      cases t <;> first | rfl | exact absurd rfl ht
    rw [hcauses, classify_eq_trap, findSome?_append_of_none htrap, List.findSome?_append]
    · simp [Cause.trap?, Cause.backtrace?, TrapCode.message]
    · rw [findSome?_append_of_none hhost]
      rfl
    · rw [findSome?_append_of_none htrap]
      simp [Cause.trap?]
  · rw [classify_eq_trap, findSome?_append_of_none htrap, List.findSome?_append, List.map_append]
    · simp [Stop.causes, Cause.trap?, Cause.backtrace?, Cause.text]
    · rw [findSome?_append_of_none hhost]
      rfl
    · rw [findSome?_append_of_none htrap]
      simp [Stop.causes, Cause.trap?]

end

/-! ## What a call ends with -/

/-- Host functions and fuel explain how a call ended: with the error of a host function just if one
answered with it, and for want of fuel just if that ran out. -/
structure Explains (calls : List HostCall) (runsOut : Prop) (stop : Stop) : Prop where
  /-- The call ended with the error of a host function just if one answered with it. -/
  refused_iff : ∀ e, stop = .refused e ↔ ∃ call ∈ calls, call.reply.result = .error e
  /-- The call ended for want of fuel just if fuel ran out. -/
  fuelExhausted_iff : stop = .fuelExhausted ↔ runsOut

/-- Host functions and fuel are the causes of an error, as far as it is no trap. -/
structure Caused (calls : List HostCall) (runsOut : Prop) (e : SandboxError) : Prop where
  /-- The error is that of a host function just if one answered with it. -/
  host_iff : ∀ error, e = .host error ↔ ∃ call ∈ calls, call.reply.result = .error error
  /-- The error is want of fuel just if fuel ran out. -/
  fuelExhausted_iff : e = .fuelExhausted ↔ runsOut
  /-- The error is a trap just if all host functions were served and there was fuel. -/
  trap_iff : (∃ t, e = .trap t) ↔
    (∀ call ∈ calls, ∃ answer, call.reply.result = .ok answer) ∧ ¬runsOut

/-- The host function `call` refused with an error.  All calls before were served, there was none
after it, and the step that made the call is the last on the path. -/
structure StopsIn (p : Program) (path : List Machine) (calls : List HostCall) (e : HostError)
    (call : HostCall) : Prop where
  /-- The function refused. -/
  result : call.reply.result = .error e
  /-- The call is the last, and those before were served. -/
  last_call : ∃ earlier, calls = earlier ++ [call] ∧
    ∀ c ∈ earlier, ∃ answer, c.reply.result = .ok answer
  /-- If there was a guest, it made the call in its last step. -/
  last_step : path = [] ∨ ∃ before last, path = before ++ [last] ∧ last.hostCall? p = some call

/-- A host function that refuses, with no guest around, is the only one that is called. -/
lemma stopsIn_singleton {p : Program} {path : List Machine} {e : HostError} {call : HostCall}
    (hresult : call.reply.result = .error e) (hpath : path = []) :
    StopsIn p path [call] e call := by
  refine ⟨hresult, ⟨[], rfl, ?_⟩, Or.inl hpath⟩
  intro c hc
  cases hc

/-- The error of a call tells its end: a host function refused, fuel was lacking, or neither. -/
lemma Stop.kinds_of_error? {stop : Stop} {e : SandboxError} (h : stop.error? = some e) :
    (∀ error, e = .host error ↔ stop = .refused error) ∧
      (e = .fuelExhausted ↔ stop = .fuelExhausted) ∧
      ((∃ t, e = .trap t) ↔ (∀ error, stop ≠ .refused error) ∧ stop ≠ .fuelExhausted) := by
  cases stop with
  | finished => cases h
  | trapped t =>
    rw [error?_trapped] at h
    cases h
    simp [SandboxError.trapped]
  | refused error =>
    rw [error?_refused] at h
    cases h
    simp
  | fuelExhausted =>
    rw [error?_fuelExhausted] at h
    cases h
    simp

/-- The error of a call that ended as host functions and fuel explain is caused by them. -/
lemma Explains.caused {calls : List HostCall} {runsOut : Prop} {stop : Stop} {e : SandboxError}
    (h : Explains calls runsOut stop) (he : stop.error? = some e) : Caused calls runsOut e := by
  obtain ⟨hhost, hfuel, htrap⟩ := Stop.kinds_of_error? he
  refine ⟨fun error => (hhost error).trans (h.refused_iff error),
    hfuel.trans h.fuelExhausted_iff, htrap.trans (and_congr ?_ (not_congr h.fuelExhausted_iff))⟩
  constructor
  · intro hnone call hcall
    cases hresult : call.reply.result with
    | ok answer => exact ⟨answer, rfl⟩
    | error error => exact absurd ((h.refused_iff error).2 ⟨call, hcall, hresult⟩) (hnone error)
  · intro hserved error hstop
    obtain ⟨call, hcall, hresult⟩ := (h.refused_iff error).1 hstop
    obtain ⟨answer, hanswer⟩ := hserved call hcall
    rw [hanswer] at hresult
    cases hresult

/-- Other errors than these three have no cause. -/
lemma Caused.kinds {calls : List HostCall} {runsOut : Prop} {e : SandboxError}
    (h : Caused calls runsOut e) :
    (∃ error, e = .host error) ∨ e = .fuelExhausted ∨ ∃ t, e = .trap t := by
  by_cases hhost : ∃ error, e = .host error
  · exact Or.inl hhost
  by_cases hfuel : e = .fuelExhausted
  · exact Or.inr (Or.inl hfuel)
  refine Or.inr (Or.inr (h.trap_iff.2 ⟨fun call hcall => ?_, mt h.fuelExhausted_iff.2 hfuel⟩))
  cases hresult : call.reply.result with
  | ok answer => exact ⟨answer, rfl⟩
  | error error => exact absurd ⟨error, (h.host_iff error).2 ⟨call, hcall, hresult⟩⟩ hhost

namespace Machine

variable {p : Program} {m m' : Machine} {call : HostCall} {e : HostError}

/-- The fuel of a run runs out: where it is looked at, the steps so far and the instruction there
burn all of it. -/
def RunsOut (p : Program) (m : Machine) : Prop :=
  ∃ before last, m.path p = before ++ [last] ∧ last.looksAtFuel p = true ∧
    m.fuel ≤ (before.map (cost p)).sum + last.instrCost

/-- A call of which the machine goes on was served. -/
lemma result_of_step_eq_next (hcall : m.hostCall? p = some call) (hstep : m.step p = .next m') :
    ∃ answer, call.reply.result = .ok answer := by
  have hsteps := steps p m
  rw [hstep] at hsteps
  cases hsteps with
  | moves hnone _ _ _ =>
    rw [hcall] at hnone
    cases hnone
  | served hsame hresult _ _ _ =>
    rw [hcall, Option.some.injEq] at hsame
    exact ⟨_, hsame ▸ hresult⟩

/-- A machine that goes on from a call has the memory that the function left. -/
lemma memory_of_hostCall (hcall : m.hostCall? p = some call) (hstep : m.step p = .next m') :
    m'.memory = call.reply.memory := by
  have hsteps := steps p m
  rw [hstep] at hsteps
  cases hsteps with
  | moves hnone _ _ _ => cases hnone.symm.trans hcall
  | served hsame _ _ hmemory _ =>
    rw [hcall, Option.some.injEq] at hsame
    rw [hmemory, hsame]

/-- A function that refuses ends the call, which keeps the context and the memory that it left. -/
lemma step_of_refused (hcall : m.hostCall? p = some call) (hresult : call.reply.result = .error e) :
    ∃ fuel, m.step p = .halt ⟨fuel, call.reply.memory, call.reply.context, .refused e⟩ := by
  have hsteps := steps p m
  generalize hstep : m.step p = s at hsteps
  cases hsteps with
  | refused hsame hrefused =>
    rw [hcall, Option.some.injEq] at hsame
    subst hsame
    rw [hresult, Except.error.injEq] at hrefused
    exact ⟨_, by rw [hrefused]⟩
  | served hsame hserved _ _ _ | unanswered hsame hserved =>
    rw [hcall, Option.some.injEq] at hsame
    subst hsame
    rw [hresult] at hserved
    cases hserved
  | moves hnone _ _ _ | trapped hnone | exhausted hnone _ _ | finished hnone =>
    rw [hcall] at hnone
    cases hnone

/-- A run in which a host function refuses ends there, with what the function left. -/
theorem run_of_refused (hcall : call ∈ m.hostCalls p) (hresult : call.reply.result = .error e) :
    StopsIn p (m.path p) (m.hostCalls p) e call ∧
      ∃ fuel, m.run p = ⟨fuel, call.reply.memory, call.reply.context, .refused e⟩ := by
  obtain ⟨before, last, hpath, hlast, hbefore, -⟩ := exists_path_eq p m
  have hserved : ∀ c ∈ before.filterMap (hostCall? p), ∃ answer, c.reply.result = .ok answer := by
    intro c hc
    obtain ⟨m₀, hm₀, hcall₀⟩ := List.mem_filterMap.1 hc
    obtain ⟨m₁, hstep⟩ := hbefore m₀ hm₀
    exact result_of_step_eq_next hcall₀ hstep
  have hcalls : m.hostCalls p =
      before.filterMap (hostCall? p) ++ (last.hostCall? p).toList := by
    rw [hostCalls_eq_filterMap, hpath, List.filterMap_append]
    cases hc : last.hostCall? p <;> simp [hc]
  rw [hcalls, List.mem_append] at hcall
  have hmade : last.hostCall? p = some call := by
    rcases hcall with hcall | hcall
    · obtain ⟨answer, hanswer⟩ := hserved call hcall
      rw [hresult] at hanswer
      cases hanswer
    · exact Option.mem_toList.1 hcall
  refine ⟨⟨hresult, ⟨_, ?_, hserved⟩, Or.inr ⟨before, last, hpath, hmade⟩⟩, ?_⟩
  · rw [hcalls, hmade]
    rfl
  · obtain ⟨fuel, hstep⟩ := step_of_refused hmade hresult
    exact ⟨fuel, Step.halt.inj (hlast.symm.trans hstep)⟩

/-- A run ends with the error of a host function just if one that it called answered with it. -/
theorem stop_eq_refused_iff (p : Program) (m : Machine) (e : HostError) :
    (m.run p).stop = .refused e ↔ ∃ call ∈ m.hostCalls p, call.reply.result = .error e := by
  constructor
  · intro hstop
    obtain ⟨before, last, hpath, hlast, -, -⟩ := exists_path_eq p m
    have hsteps := steps p last
    rw [hlast] at hsteps
    generalize m.run p = halt at hsteps hstop
    cases hsteps with
    | @refused _ call _ hcall hresult =>
      cases hstop
      refine ⟨call, ?_, hresult⟩
      rw [hostCalls_eq_filterMap, hpath]
      exact List.mem_filterMap.2 ⟨last, List.mem_append_right _ List.mem_cons_self, hcall⟩
    | unanswered _ _ | trapped _ | exhausted _ _ _ | finished _ => cases hstop
  · rintro ⟨call, hcall, hresult⟩
    obtain ⟨-, fuel, hrun⟩ := run_of_refused hcall hresult
    rw [hrun]

/-- A run ends for want of fuel just if its fuel runs out. -/
theorem stop_eq_fuelExhausted_iff (p : Program) (m : Machine) :
    (m.run p).stop = .fuelExhausted ↔ m.RunsOut p := by
  obtain ⟨before, last, hpath, hlast, -, hfuel⟩ := exists_path_eq p m
  constructor
  · intro hstop
    have hsteps := steps p last
    rw [hlast] at hsteps
    generalize m.run p = halt at hsteps hstop
    cases hsteps with
    | exhausted _ hlooks hle =>
      refine ⟨before, last, hpath, hlooks, ?_⟩
      omega
    | refused _ _ | unanswered _ _ | trapped _ | finished _ => cases hstop
  · rintro ⟨before', last', hpath', hlooks, hle⟩
    rw [hpath] at hpath'
    obtain ⟨rfl, hsame⟩ := List.append_inj' hpath' rfl
    obtain rfl := List.singleton_inj.1 hsame
    obtain ⟨fuel, hstep⟩ := step_of_fuel_le hlooks (by omega)
    rw [Step.halt.inj (hlast.symm.trans hstep)]

/-- The end of a run is explained by the host functions that it calls and by its fuel. -/
lemma explains (p : Program) (m : Machine) :
    Explains (m.hostCalls p) (m.RunsOut p) (m.run p).stop :=
  ⟨stop_eq_refused_iff p m, stop_eq_fuelExhausted_iff p m⟩

end Machine

/-! ## Calls from outside -/

namespace Program

variable {p : Program} {index fuel : Nat} {memory : Memory} {context : Context} {call : HostCall}
  {e : HostError}

/-- The fuel of a call from outside runs out: there is none to enter the function, or it runs out
there. -/
def RunsOut (p : Program) (index fuel : Nat) (memory : Memory) (context : Context) : Prop :=
  ∃ f, p.callee? index = some (.guest f) ∧
    (fuel = 0 ∨ (machine f fuel memory context).RunsOut p)

/-- The end of a host function that is called without a guest in between is explained by its
answer. -/
lemma explains_runHost (b : Binding) (fuel : Nat) (memory : Memory) (context : Context) :
    Explains [⟨b, context, memory, []⟩] False (runHost b fuel memory context).stop := by
  have hreply : HostCall.reply ⟨b, context, memory, []⟩ = b.handler.run context memory [] := rfl
  unfold runHost
  dsimp only
  constructor
  · intro e
    simp only [List.mem_singleton, exists_eq_left, hreply]
    split
    next error herror => simp [herror]
    next answer hanswer =>
      simp only [hanswer, reduceCtorEq, iff_false]
      split <;> simp
  · rw [iff_false]
    split
    · exact Stop.noConfusion
    · split <;> exact Stop.noConfusion

/-- The end of a guest that is called from outside is explained by the host functions that it calls
and by its fuel. -/
lemma explains_runGuest {f : Function} (hf : p.callee? index = some (.guest f)) :
    Explains (p.exportCalls index fuel memory context) (p.RunsOut index fuel memory context)
      (p.runGuest f fuel memory context).stop := by
  have hrunsOut : p.RunsOut index fuel memory context ↔
      fuel = 0 ∨ (machine f fuel memory context).RunsOut p := by
    constructor
    · rintro ⟨g, hg, hruns⟩
      rw [hf, Option.some.injEq, Callee.guest.injEq] at hg
      rw [hg]
      exact hruns
    · exact fun hruns => ⟨f, hf, hruns⟩
  have hcalls : p.exportCalls index fuel memory context =
      if fuel = 0 then [] else (machine f fuel memory context).hostCalls p := by
    simp only [exportCalls, hf]
  unfold runGuest
  by_cases hfuel : fuel = 0
  · rw [if_pos hfuel] at hcalls ⊢
    rw [hcalls]
    refine ⟨fun e => ?_, iff_of_true rfl (hrunsOut.2 (Or.inl hfuel))⟩
    simp
  · rw [if_neg hfuel] at hcalls ⊢
    rw [hcalls]
    have hmachine := (machine f fuel memory context).explains p
    refine ⟨hmachine.refused_iff, hmachine.fuelExhausted_iff.trans ?_⟩
    rw [hrunsOut, or_iff_right hfuel]

/-- The end of an exported function is explained by the host functions that are called and by the
fuel. -/
theorem explains_runExport (p : Program) (index fuel : Nat) (memory : Memory) (context : Context) :
    Explains (p.exportCalls index fuel memory context) (p.RunsOut index fuel memory context)
      (p.runExport index fuel memory context).stop := by
  unfold runExport
  cases hcallee : p.callee? index with
  | none =>
    refine ⟨fun e => ?_, ?_⟩
    · simp [exportCalls, hcallee]
    · simp [RunsOut, hcallee]
  | some callee =>
    cases callee with
    | guest f => exact explains_runGuest hcallee
    | host b =>
      have hhost := explains_runHost b fuel .empty context
      refine ⟨fun e => ?_, ?_⟩
      · simp only [exportCalls, hcallee]
        exact hhost.refused_iff e
      · simp only [RunsOut, hcallee, Option.some.injEq, reduceCtorEq, false_and, exists_false]
        exact hhost.fuelExhausted_iff

/-- The end of the start function is explained by the host functions that are called and by the
fuel. -/
theorem explains_runStart (p : Program) (index fuel : Nat) (memory : Memory) (context : Context) :
    Explains (p.startCalls index fuel memory context) (p.RunsOut index fuel memory context)
      (p.runStart index fuel memory context).stop := by
  unfold runStart startCalls
  cases hcallee : p.callee? index with
  | none =>
    have hexport := explains_runExport p index fuel memory context
    simp only [runExport, hcallee] at hexport
    exact hexport
  | some callee =>
    cases callee with
    | guest f => exact explains_runGuest hcallee
    | host b =>
      have hhost := explains_runHost b fuel memory context
      refine ⟨hhost.refused_iff, ?_⟩
      simp only [RunsOut, hcallee, Option.some.injEq, reduceCtorEq, false_and, exists_false]
      exact hhost.fuelExhausted_iff

/-- A guest that is called from outside stops in a host function that refuses, and keeps what this
left. -/
lemma runGuest_of_refused {f : Function} (hf : p.callee? index = some (.guest f))
    (hcall : call ∈ p.exportCalls index fuel memory context)
    (hresult : call.reply.result = .error e) :
    StopsIn p (p.path index fuel memory context) (p.exportCalls index fuel memory context) e call ∧
      p.path index fuel memory context ≠ [] ∧
      (p.runGuest f fuel memory context).memory = call.reply.memory ∧
      (p.runGuest f fuel memory context).context = call.reply.context := by
  simp only [exportCalls, hf] at hcall
  by_cases hfuel : fuel = 0
  · rw [if_pos hfuel] at hcall
    cases hcall
  · rw [if_neg hfuel] at hcall
    obtain ⟨hstops, fuel', hrun⟩ := Machine.run_of_refused hcall hresult
    have hne : (machine f fuel memory context).path p ≠ [] := by
      rw [Machine.path]
      exact List.cons_ne_nil _ _
    simp only [exportCalls, path, runGuest, hf, if_neg hfuel, hrun, and_self, and_true]
    exact ⟨hstops, hne⟩

/-- A host function that refuses is the last that an exported function calls.  The context is what
it left; so is the memory, if it was a guest that called it, and otherwise it is kept. -/
theorem runExport_of_refused (hcall : call ∈ p.exportCalls index fuel memory context)
    (hresult : call.reply.result = .error e) :
    StopsIn p (p.path index fuel memory context) (p.exportCalls index fuel memory context) e call ∧
      (p.runExport index fuel memory context).context = call.reply.context ∧
      (p.runExport index fuel memory context).memory =
        if p.path index fuel memory context = [] then memory else call.reply.memory := by
  cases hcallee : p.callee? index with
  | none =>
    simp only [exportCalls, hcallee] at hcall
    cases hcall
  | some callee =>
    cases callee with
    | guest f =>
      obtain ⟨hstops, hne, hmemory, hcontext⟩ := runGuest_of_refused hcallee hcall hresult
      simp only [runExport, hcallee]
      rw [if_neg hne]
      exact ⟨hstops, hcontext, hmemory⟩
    | host b =>
      have hpath : p.path index fuel memory context = [] := by simp only [path, hcallee]
      have hcalls : p.exportCalls index fuel memory context = [⟨b, context, .empty, []⟩] := by
        simp only [exportCalls, hcallee]
      rw [hcalls, List.mem_singleton] at hcall
      simp only [runExport, hcallee]
      rw [if_pos hpath, hcalls, hcall]
      rw [hcall] at hresult
      exact ⟨stopsIn_singleton hresult hpath, rfl, rfl⟩

/-- A host function that refuses is the last that the start function calls, and context and memory
are what it left. -/
theorem runStart_of_refused (hcall : call ∈ p.startCalls index fuel memory context)
    (hresult : call.reply.result = .error e) :
    StopsIn p (p.path index fuel memory context) (p.startCalls index fuel memory context) e call ∧
      (p.runStart index fuel memory context).context = call.reply.context ∧
      (p.runStart index fuel memory context).memory = call.reply.memory := by
  cases hcallee : p.callee? index with
  | none =>
    simp only [startCalls, exportCalls, hcallee] at hcall
    cases hcall
  | some callee =>
    cases callee with
    | guest f =>
      have hcalls : p.startCalls index fuel memory context =
          p.exportCalls index fuel memory context := by
        simp only [startCalls, hcallee]
      rw [hcalls] at hcall ⊢
      obtain ⟨hstops, -, hmemory, hcontext⟩ := runGuest_of_refused hcallee hcall hresult
      simp only [runStart, hcallee]
      exact ⟨hstops, hcontext, hmemory⟩
    | host b =>
      have hpath : p.path index fuel memory context = [] := by simp only [path, hcallee]
      have hcalls : p.startCalls index fuel memory context = [⟨b, context, memory, []⟩] := by
        simp only [startCalls, hcallee]
      rw [hcalls, List.mem_singleton] at hcall
      simp only [runStart, hcallee]
      rw [hcalls, hcall]
      rw [hcall] at hresult
      exact ⟨stopsIn_singleton hresult hpath, rfl, rfl⟩

end Program

/-! ## Calls of instances -/

namespace Instance

variable {i i' : Instance} {name : String} {index : Nat} {e : SandboxError}

/-- The fuel of a call of an exported function runs out. -/
def RunsOut (i : Instance) (name : String) : Prop :=
  ∃ index, i.module.exportedFunction? name = some index ∧
    i.program.RunsOut index i.budget.fuel i.memory i.context

/-- The fuel of the start function runs out. -/
def StartRunsOut (i : Instance) : Prop :=
  ∃ index, i.module.description.start = some index ∧
    i.program.RunsOut index i.fuel i.memory i.context

/-- A call of an exported function that fails is caused by host functions or by the fuel, or it is a
trap.  A host function that refuses is the last that is called.  The context is what it left; so is
the memory, if it was a guest that called it, and otherwise it is kept. -/
theorem caused_of_call (hindex : i.module.exportedFunction? name = some index)
    (htype : functionType i.module index = .function entrySignature)
    (h : i.call name = (.error e, i')) :
    Caused (i.hostCalls name) (i.RunsOut name) e ∧
      ∀ error, e = .host error → ∃ call,
        StopsIn i.program (i.path name) (i.hostCalls name) error call ∧
          i'.context = call.reply.context ∧
          i'.memory = if i.path name = [] then i.memory else call.reply.memory := by
  have hcalls := hostCalls_of_exported hindex htype
  have hpath : i.path name = i.program.path index i.budget.fuel i.memory i.context := by
    simp only [path, hindex, if_pos htype]
  have hrunsOut : i.RunsOut name ↔
      i.program.RunsOut index i.budget.fuel i.memory i.context := by
    simp only [RunsOut, hindex, Option.some.injEq, exists_eq_left']
  rw [call_of_runExport hindex htype rfl, Prod.mk.injEq] at h
  obtain ⟨hresult, rfl⟩ := h
  have herror : (i.program.runExport index i.budget.fuel i.memory i.context).stop.error? =
      some e := by
    split at hresult
    next herror => rw [herror, Except.error.inj hresult]
    next => cases hresult
  have hcaused : Caused (i.hostCalls name) (i.RunsOut name) e := by
    rw [hcalls, hrunsOut]
    exact (i.program.explains_runExport index i.budget.fuel i.memory i.context).caused herror
  refine ⟨hcaused, fun error herror => ?_⟩
  obtain ⟨call, hmem, hrefused⟩ := (hcaused.host_iff error).1 herror
  rw [hcalls] at hmem
  obtain ⟨hstops, hcontext, hmemory⟩ := Program.runExport_of_refused hmem hrefused
  rw [hcalls, hpath]
  exact ⟨call, hstops, hcontext, hmemory⟩

/-- A start that fails is caused by host functions or by the fuel, or it is a trap.  A host function
that refuses is the last that is called, and context and memory are what it left. -/
theorem caused_of_start (h : i.start = .error e) :
    ∃ index, i.module.description.start = some index ∧
      Caused i.startCalls i.StartRunsOut e ∧
      ∀ error, e = .host error → ∃ call,
        StopsIn i.program i.startPath i.startCalls error call ∧
          (i.program.runStart index i.fuel i.memory i.context).context = call.reply.context ∧
          (i.program.runStart index i.fuel i.memory i.context).memory = call.reply.memory := by
  unfold start at h
  split at h
  · cases h
  next index hindex =>
    have hcalls : i.startCalls = i.program.startCalls index i.fuel i.memory i.context := by
      simp only [startCalls, hindex]
    have hpath : i.startPath = i.program.path index i.fuel i.memory i.context := by
      simp only [startPath, hindex]
    have hrunsOut : i.StartRunsOut ↔ i.program.RunsOut index i.fuel i.memory i.context := by
      simp only [StartRunsOut, hindex, Option.some.injEq, exists_eq_left']
    have herror : (i.program.runStart index i.fuel i.memory i.context).stop.error? = some e := by
      dsimp only at h
      split at h
      next herror => rw [herror, Except.error.inj h]
      next => cases h
    have hcaused : Caused i.startCalls i.StartRunsOut e := by
      rw [hcalls, hrunsOut]
      exact (i.program.explains_runStart index i.fuel i.memory i.context).caused herror
    refine ⟨index, hindex, hcaused, fun error herror => ?_⟩
    obtain ⟨call, hmem, hrefused⟩ := (hcaused.host_iff error).1 herror
    rw [hcalls] at hmem
    obtain ⟨hstops, hleft⟩ := Program.runStart_of_refused hmem hrefused
    rw [hcalls, hpath]
    exact ⟨call, hstops, hleft⟩

end Instance

end ContractHost.Wasm
