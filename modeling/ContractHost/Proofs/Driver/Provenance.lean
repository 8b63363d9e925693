import ContractHost.Proofs.Driver.FailedCall

/-!
# What the instance of a driver is made of

Whatever was done with a driver, its module is a valid one that exports its memory
(`Driver.Reachable.compiled`), and its instance has this module, the budget of the engine and the
functions that were linked (`Driver.Reachable.madeOf`).  An entry point that the driver accepts is a
function that the instance runs (`Wasm.Instance.exportedFunction?_of_checkEntryPoint`).

If the driver offers the functions of the bridge and no others, the instance imports nothing else.
The log of a call is then made of the records that its host calls added
(`Driver.Reachable.invoke_of_bridge`).
-/

namespace ContractHost

namespace Wasm

/-- A module that is made of a file comes from a description, and exports its memory. -/
lemma Module.compiled_of_ofSource {source : Source} {m : Module} (h : ofSource source = .ok m) :
    m.exportsMemory ∧ ∃ description : Description, description.compile = some m := by
  unfold ofSource at h
  split at h
  · cases h
  next hcompiled =>
    split at h
    next hexports =>
      cases h
      obtain ⟨description, _, hcompile⟩ := Option.bind_eq_some_iff.1 hcompiled
      exact ⟨hexports, description, hcompile⟩
    · cases h

namespace Instance

variable {budget : Budget} {m : Module} {bs : List Binding} {context : Context} {name : String}
  {i i' made : Instance}

/-! ## Making an instance -/

/-- An instance that is ready to start has a function for every import, and a memory of the least
size with the data in it. -/
lemma prepare_eq_ok_iff : prepare budget m bs context = .ok i ↔
    ∃ imports memory filled, resolveImports m bs = .ok imports ∧
      newMemory m budget = .ok memory ∧ fill m.description.data memory = .ok filled ∧
      i = ⟨m, programOf m budget imports, budget, budget.fuel, filled, context⟩ := by
  unfold prepare
  constructor
  · intro h
    obtain ⟨imports, himports, h⟩ := bind_eq_ok_iff.1 h
    obtain ⟨memory, hmemory, h⟩ := bind_eq_ok_iff.1 h
    obtain ⟨filled, hfill, h⟩ := bind_eq_ok_iff.1 h
    cases h
    exact ⟨imports, memory, filled, himports, hmemory, hfill, rfl⟩
  · rintro ⟨imports, memory, filled, himports, hmemory, hfill, rfl⟩
    refine bind_eq_ok_iff.2 ⟨imports, himports, ?_⟩
    refine bind_eq_ok_iff.2 ⟨memory, hmemory, ?_⟩
    exact bind_eq_ok_iff.2 ⟨filled, hfill, rfl⟩

/-- A new instance is one that was ready to start and has started, of a module that exports its
memory. -/
lemma new_eq_ok_iff : new budget m bs context = .ok i ↔
    ∃ made, prepare budget m bs context = .ok made ∧ made.start = .ok i ∧
      m.exportsMemory = true := by
  unfold new
  constructor
  · intro h
    obtain ⟨made, hmade, h⟩ := bind_eq_ok_iff.1 h
    obtain ⟨started, hstarted, h⟩ := bind_eq_ok_iff.1 h
    split at h
    next hexports =>
      cases h
      exact ⟨made, hmade, hstarted, hexports⟩
    · cases h
  · rintro ⟨made, hmade, hstarted, hexports⟩
    simp only [hmade, hstarted, hexports, bind, Except.bind, if_true]

/-- Of an instance that is ready to start, all that can fail is the start function. -/
lemma start_of_new_error {e : SandboxError} (hmade : prepare budget m bs context = .ok made)
    (hexports : m.exportsMemory = true) (h : new budget m bs context = .error e) :
    made.start = .error e := by
  unfold new at h
  rcases bind_eq_error_iff.1 h with hfails | ⟨i, hi, h⟩
  · cases hmade.symm.trans hfails
  obtain rfl : made = i := Except.ok.inj (hmade.symm.trans hi)
  rcases bind_eq_error_iff.1 h with hstart | ⟨_, _, h⟩
  · exact hstart
  · rw [if_pos hexports] at h
    cases h

/-- The instance is one of the module within the budget, and imports what was found for the module
among the functions. -/
structure MadeOf (budget : Budget) (m : Module) (bs : List Binding) (i : Instance) : Prop where
  /-- The module is the one given. -/
  module_eq : i.module = m
  /-- The budget is the one given. -/
  budget_eq : i.budget = budget
  /-- The imports were found among the functions given. -/
  program_eq : ∃ imports, resolveImports m bs = .ok imports ∧
    i.program = programOf m budget imports

/-- What an instance is ready to start with, it is made of. -/
lemma madeOf_prepare (h : prepare budget m bs context = .ok i) : i.MadeOf budget m bs := by
  obtain ⟨imports, memory, filled, himports, _, _, rfl⟩ := prepare_eq_ok_iff.1 h
  exact ⟨rfl, rfl, imports, himports, rfl⟩

/-- Starting keeps what the instance is made of. -/
lemma MadeOf.start (h : i.MadeOf budget m bs) (hstart : i.start = .ok i') :
    i'.MadeOf budget m bs := by
  unfold Instance.start at hstart
  split at hstart
  · cases hstart
    exact h
  · dsimp only at hstart
    split at hstart
    · cases hstart
    · cases hstart
      exact ⟨h.module_eq, h.budget_eq, h.program_eq⟩

/-- Calling keeps what the instance is made of. -/
lemma MadeOf.call {result : Except SandboxError Unit} (h : i.MadeOf budget m bs)
    (hcall : i.call name = (result, i')) : i'.MadeOf budget m bs := by
  have hkept : ∀ halt, (i.absorb halt).MadeOf budget m bs := by
    intro halt
    exact ⟨h.module_eq, h.budget_eq, h.program_eq⟩
  unfold Instance.call at hcall
  dsimp only at hcall
  split at hcall
  · cases hcall
    exact ⟨h.module_eq, h.budget_eq, h.program_eq⟩
  · split at hcall
    · cases hcall
      exact hkept _
    · cases hcall
      exact ⟨h.module_eq, h.budget_eq, h.program_eq⟩

/-- The open log is no part of what the instance is made of. -/
lemma MadeOf.holding (h : i.MadeOf budget m bs) (log : Log) :
    (i.holding log).MadeOf budget m bs := ⟨h.module_eq, h.budget_eq, h.program_eq⟩

/-- A new instance is made of what it was given. -/
lemma madeOf_new (h : new budget m bs context = .ok i) : i.MadeOf budget m bs := by
  obtain ⟨made, hmade, hstart, _⟩ := new_eq_ok_iff.1 h
  exact (madeOf_prepare hmade).start hstart

/-- The instance imports nothing but functions of the bridge. -/
def OnBridge (i : Instance) : Prop :=
  ∀ b ∈ i.program.imports, ∃ f : Bridge.HostFunction, b = f.binding

/-- An instance imports nothing else, if it is made of what was linked with the bridge. -/
lemma MadeOf.onBridge (h : i.MadeOf budget m bs)
    (hlink : Bridge.registry.link m.imports = .ok bs) : i.OnBridge := by
  intro b himport
  obtain ⟨imports, himports, hprogram⟩ := h.program_eq
  rw [hprogram, programOf, List.mem_toArray] at himport
  have hlinked := mem_of_resolveImports himports himport
  exact Bridge.HostFunction.exists_of_mem_bindings (Registry.mem_bindings_of_link hlink hlinked)

/-! ## Entry points -/

/-- An entry point that is accepted is an exported function that neither takes nor gives a value.
Both look for the first export of the name, since the first that is no function is rejected. -/
lemma exportedFunction?_of_checkEntryPoint (h : checkEntryPoint m.exports name = .ok ()) :
    ∃ index, m.exportedFunction? name = some index ∧
      functionType m index = .function entrySignature := by
  unfold checkEntryPoint at h
  split at h
  · cases h
  next found hfound =>
    split at h
    next htype =>
      rw [Module.exports, List.find?_map] at hfound
      obtain ⟨e, he, rfl⟩ := Option.map_eq_some_iff.1 hfound
      obtain ⟨hname, before, after, hexports, hbefore⟩ := List.find?_eq_some_iff_append.1 he
      have hkind : e.kind = .function := by
        cases hkind : e.kind with
        | function => rfl
        | memory | table | global =>
          simp only [Description.declaredExport, hkind, reduceCtorEq] at htype
      have hfind : m.description.exports.find? (fun e => e.name = name && e.kind = .function) =
          some e := by
        refine List.find?_eq_some_iff_append.2 ⟨?_, before, after, hexports, fun e' he' => ?_⟩
        · rw [hkind]
          simpa using hname
        · have hother : ¬e'.name = name := by simpa using hbefore e' he'
          simp [hother]
      refine ⟨e.index, ?_, ?_⟩
      · rw [Module.exportedFunction?, hfind]
        rfl
      · simp only [Description.declaredExport, hkind] at htype
        exact htype
    · cases h

end Instance

end Wasm

namespace Driver

variable {d d' : Driver Wasm.Source Wasm.Module Wasm.Instance} {budget : Wasm.Budget}
  {registry : Registry} {config : Config} {m : Wasm.Module} {i : Wasm.Instance} {entry : String}

/-- The module of a driver was compiled, and exports its memory. -/
lemma Reachable.compiled (h : Reachable (Wasm.engine budget) registry config d)
    (hm : d.module = some m) :
    m.exportsMemory ∧ ∃ description : Wasm.Description, description.compile = some m := by
  rcases h.provides hm with ⟨source, hsource⟩ | ⟨_ | source, hfile⟩
  · exact Wasm.Module.compiled_of_ofSource hsource
  · cases hfile
  · exact Wasm.Module.compiled_of_ofSource hfile

/-- What an instance is made of does not change, whatever is done with it. -/
lemma kept_madeOf (budget : Wasm.Budget) (registry : Registry) (config : Config) :
    Kept (Wasm.engine budget) registry config fun _ m bs i => i.MadeOf budget m bs where
  made _ hmade := Wasm.Instance.madeOf_new hmade
  rejected h := h
  returned h hcall := ((h.holding .empty).call hcall).holding .empty
  failed h hcall := (h.holding .empty).call hcall
  written h _ := ⟨h.module_eq, h.budget_eq, h.program_eq⟩

/-- The instance of a driver is made of its module and of the functions that were linked. -/
lemma Reachable.madeOf (h : Reachable (Wasm.engine budget) registry config d)
    (hm : d.module = some m) (hi : d.guest = some i) : i.MadeOf budget m d.linked :=
  h.holds (kept_madeOf budget registry config) m i hm hi

/-- The instance of a driver with the functions of the bridge imports nothing else. -/
lemma Reachable.onBridge (h : Reachable (Wasm.engine budget) Bridge.registry config d)
    (hi : d.guest = some i) : i.OnBridge := by
  obtain ⟨hengine, hregistry, _, hcoherent⟩ := h.coherent
  have hlinked := hcoherent.isLinked_of_guest (Option.isSome_of_eq_some hi)
  obtain ⟨m, hm⟩ := hcoherent.exists_module hlinked.1
  have hlink := hcoherent.linked_eq hlinked m hm
  rw [hengine, hregistry] at hlink
  exact (h.madeOf hm hi).onBridge hlink

/-- With the functions of the bridge every host call of a guest adds some records, or none; and a
call in an empty log leaves these in the log, in order. -/
lemma Reachable.exists_added (h : Reachable (Wasm.engine budget) Bridge.registry config d)
    (hi : d.guest = some i) (entry : String) :
    ∃ added, List.Forall₂ Wasm.HostCall.Adds ((i.holding .empty).hostCalls entry) added ∧
      ((i.holding .empty).call entry).2.context.log = .ofList added.flatten := by
  have honly : ∀ b ∈ (i.holding .empty).program.imports, b.OnlyAdds := by
    intro b hb
    obtain ⟨f, rfl⟩ := h.onBridge hi b hb
    exact f.onlyAdds_binding
  obtain ⟨added, hadded⟩ := (i.holding .empty).exists_forall₂_adds_hostCalls entry honly
  exact ⟨added, hadded, ((i.holding .empty).threads_hostCalls entry).log_eq hadded⟩

/-- With the functions of the bridge and an entry point that is accepted, a call of a ready driver
that succeeds hands out the records that the host calls of its guest added, in order, and leaves an
empty log.  If the call fails, these records are the open log. -/
theorem Reachable.invoke_of_bridge {result : Except SandboxError Log}
    (h : Reachable (Wasm.engine budget) Bridge.registry config d) (hready : d.state = .ready)
    (hentry : checkEntryPoint d.declared entry = .ok ())
    (hinvoke : d.invoke entry = (result, d')) :
    ∃ i added, d.guest = some i ∧
      List.Forall₂ Wasm.HostCall.Adds ((i.holding .empty).hostCalls entry) added ∧
      (result = .ok (.ofList added.flatten) ∧ d'.currentLog = some .empty ∨
        ∃ e, result = .error e ∧ d'.currentLog = some (.ofList added.flatten)) := by
  obtain ⟨hengine, _, _, hcoherent⟩ := h.coherent
  cases hcoherent.called hinvoke with
  | refused hstate => exact absurd hready hstate
  | rejected _ hrejected => cases hentry.symm.trans hrejected
  | @returned i i' _ _ hi hcall =>
    obtain ⟨added, hadded, hlog⟩ := h.exists_added hi entry
    rw [← call_takeLog hengine, hcall] at hlog
    refine ⟨i, added, hi, hadded, Or.inl ⟨?_, ?_⟩⟩
    · rw [← hlog, hengine]
      rfl
    · exact currentLog_of_takeLog hengine rfl
  | @failed i i' e _ _ hi hcall =>
    obtain ⟨added, hadded, hlog⟩ := h.exists_added hi entry
    rw [← call_takeLog hengine, hcall] at hlog
    refine ⟨i, added, hi, hadded, Or.inr ⟨e, rfl, ?_⟩⟩
    exact Eq.trans (currentLog_of_guest hengine rfl) (congrArg some hlog)

end Driver

end ContractHost
