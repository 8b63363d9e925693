import Mathlib.Data.List.Forall2
import Mathlib.Tactic.Common
import ContractHost.Bridge
import ContractHost.Proofs.Checks
import ContractHost.Proofs.Driver.History
import ContractHost.Proofs.Import.Registration
import ContractHost.Proofs.Reason.RoundTrip
import ContractHost.Wasm.Instance

/-!
# From linking to instances

Imports are resolved twice: the registry finds a host function for each declaration, and the
instance defines these functions under their names and looks each declaration up again.  The two
agree if no name is imported twice, and then an instantiation can only fail on the memory, the data
or the start function.  A name that is imported twice links, but no instance can be made
(`Driver.instantiate_of_link`).
-/

namespace ContractHost

/-- The name that an import asks for. -/
def ImportDecl.key (decl : ImportDecl) : String × String := (decl.space, decl.name)

namespace Registry

variable {r : Registry} {imports : List ImportDecl} {bs : List Binding}

/-- A declaration is linked to the function under its name, if that has the declared signature. -/
lemma linkOne_eq_ok_iff {decl : ImportDecl} {b : Binding} :
    r.linkOne decl = .ok b ↔
      r.resolve? decl.space decl.name = some b ∧ decl.type = .function b.signature := by
  unfold linkOne
  cases hb : r.resolve? decl.space decl.name with
  | none => simp
  | some c =>
    cases ht : decl.type with
    | unsupported d => simp
    | function s =>
      by_cases hs : s = c.signature
      · simp only [hs, if_true, Except.ok.injEq, Option.some.injEq, DeclaredType.function.injEq]
        exact ⟨fun h => ⟨h, by rw [h]⟩, fun h => h.1⟩
      · simp only [hs, if_false, reduceCtorEq, Option.some.injEq, DeclaredType.function.injEq,
          false_iff, not_and]
        rintro rfl
        exact hs

/-- A declaration is linked to a function of its name. -/
lemma key_of_linkOne {decl : ImportDecl} {b : Binding} (h : r.linkOne decl = .ok b) :
    b.key = decl.key := by
  have hfind := (linkOne_eq_ok_iff.1 h).1
  simpa [ImportDecl.key] using List.find?_some hfind

/-- Linked functions are registered. -/
lemma mem_bindings_of_link {b : Binding} (h : r.link imports = .ok bs) (hb : b ∈ bs) :
    b ∈ r.bindings := by
  obtain ⟨decl, _, hone⟩ := exists_of_mem_mapM h hb
  exact List.mem_of_find?_eq_some (linkOne_eq_ok_iff.1 hone).1

/-- Linked functions have the names of the declarations, in order. -/
lemma keys_of_link (h : r.link imports = .ok bs) :
    bs.map Binding.key = imports.map ImportDecl.key := by
  have hlink := mapM_eq_ok_iff.1 h
  clear h
  induction hlink with
  | nil => rfl
  | cons hone _ ih => rw [List.map_cons, List.map_cons, key_of_linkOne hone, ih]

end Registry

namespace Wasm.Instance

variable {r : Registry} {m : Module} {bs : List Binding}

/-- No name is found twice just if the names are different from each other and from those seen. -/
lemma definedTwice?_eq_none_iff (seen : List (String × String)) (bs : List Binding) :
    definedTwice? seen bs = none ↔
      (bs.map Binding.key).Nodup ∧ ∀ b ∈ bs, b.key ∉ seen := by
  induction bs generalizing seen with
  | nil => simp [definedTwice?]
  | cons b bs ih =>
    by_cases hb : b.key ∈ seen
    · simp [definedTwice?, hb]
    · have hcontains : seen.contains b.key = false := by simpa using hb
      rw [definedTwice?, hcontains, if_neg (by decide), ih, List.map_cons, List.nodup_cons]
      constructor
      · rintro ⟨hnodup, hseen⟩
        refine ⟨⟨fun hmem => ?_, hnodup⟩, fun c hc => ?_⟩
        · obtain ⟨c, hc, hkey⟩ := List.mem_map.1 hmem
          exact hseen c hc (by rw [hkey]; exact List.mem_cons_self)
        · rcases List.mem_cons.1 hc with rfl | hc
          · exact hb
          · exact fun hmem => hseen c hc (List.mem_cons_of_mem _ hmem)
      · rintro ⟨⟨hfresh, hnodup⟩, hseen⟩
        refine ⟨hnodup, fun c hc hmem => ?_⟩
        rcases List.mem_cons.1 hmem with hkey | hmem
        · exact hfresh (hkey ▸ List.mem_map_of_mem hc)
        · exact hseen c (List.mem_cons_of_mem _ hc) hmem

/-- What is found twice is one of the functions. -/
lemma mem_of_definedTwice? {seen : List (String × String)} {b : Binding}
    (h : definedTwice? seen bs = some b) : b ∈ bs := by
  induction bs generalizing seen with
  | nil => cases h
  | cons c bs ih =>
    rw [definedTwice?] at h
    split at h
    · cases h
      exact List.mem_cons_self
    · exact List.mem_cons_of_mem _ (ih h)

/-- Under different names the function that a declaration was linked to is found for it again. -/
lemma bindingFor_of_linkOne (h : (bs.map Binding.key).Nodup) {decl : ImportDecl} {b : Binding}
    (hb : b ∈ bs) (hlink : r.linkOne decl = .ok b) : bindingFor bs decl = .ok b := by
  have hkey : (decl.space, decl.name) = b.key := (Registry.key_of_linkOne hlink).symm
  rw [bindingFor, hkey, Registry.find?_key_of_nodup h hb]
  simp only [(Registry.linkOne_eq_ok_iff.1 hlink).2, if_true]

/-- Functions that were linked to the imports are found for them again just if no name is imported
twice. -/
lemma resolveImports_of_link (h : r.link m.imports = .ok bs) :
    resolveImports m bs = .ok bs ↔ (m.imports.map ImportDecl.key).Nodup := by
  rw [← Registry.keys_of_link h]
  constructor
  · intro hresolve
    unfold resolveImports at hresolve
    split at hresolve
    · cases hresolve
    next hnone => exact ((definedTwice?_eq_none_iff [] bs).1 hnone).1
  · intro hnodup
    have hnone : definedTwice? [] bs = none :=
      (definedTwice?_eq_none_iff [] bs).2 ⟨hnodup, fun _ _ => List.not_mem_nil⟩
    rw [resolveImports, hnone]
    have hlink := mapM_eq_ok_iff.1 h
    refine mapM_eq_ok_iff.2 (List.forall₂_iff_get.2 ⟨hlink.length_eq, fun i h₁ h₂ => ?_⟩)
    exact bindingFor_of_linkOne hnodup (List.get_mem bs ⟨i, h₂⟩) (hlink.get h₁ h₂)

/-- If a name is imported twice, it is the one that cannot be defined again. -/
lemma resolveImports_of_not_nodup (h : ¬(bs.map Binding.key).Nodup) :
    ∃ b ∈ bs, resolveImports m bs =
      .error (.engine ("map entry `" ++ b.space ++ "::" ++ b.name ++ "` defined twice")) := by
  cases hb : definedTwice? [] bs with
  | none => exact absurd ((definedTwice?_eq_none_iff [] bs).1 hb).1 h
  | some b => exact ⟨b, mem_of_definedTwice? hb, by rw [resolveImports, hb]⟩

/-- The functions that are found for the imports are among those that were linked. -/
lemma mem_of_resolveImports {imports : List Binding} {b : Binding}
    (h : resolveImports m bs = .ok imports) (hb : b ∈ imports) : b ∈ bs := by
  unfold resolveImports at h
  split at h
  · cases h
  · obtain ⟨decl, _, hfound⟩ := exists_of_mem_mapM h hb
    unfold bindingFor at hfound
    split at hfound
    · cases hfound
    next c hc =>
      split at hfound
      · cases hfound
        exact List.mem_of_find?_eq_some hc
      · cases hfound

/-- What is left to be done for an instance when a function was found for every import. -/
def newWith (budget : Budget) (m : Module) (imports : List Binding) (context : Context) :
    Except SandboxError Instance := do
  let memory ← newMemory m budget
  let memory ← fill m.description.data memory
  let i ← start ⟨m, programOf m budget imports, budget, budget.fuel, memory, context⟩
  if m.exportsMemory then .ok i
  else .error (.memory s!"no '{memoryExportName}' export")

/-- An instance is made by finding a function for every import, and then the rest. -/
lemma new_eq_bind (budget : Budget) (m : Module) (bs : List Binding) (context : Context) :
    new budget m bs context =
      (resolveImports m bs).bind fun imports => newWith budget m imports context := by
  unfold new prepare newWith
  cases resolveImports m bs with
  | error e => rfl
  | ok imports =>
    cases newMemory m budget with
    | error e => rfl
    | ok memory =>
      cases hfill : fill m.description.data memory with
      | error e => simp only [bind, Except.bind, hfill]
      | ok filled => simp only [bind, Except.bind, hfill]

/-- Starting keeps the functions. -/
lemma program_start {i i' : Instance} (h : i.start = .ok i') : i'.program = i.program := by
  unfold start at h
  split at h
  · cases h
    rfl
  · dsimp only at h
    split at h
    · cases h
    · cases h
      rfl

/-- The functions that a new instance imports are among those that were linked. -/
lemma mem_of_mem_imports_new {budget : Budget} {context : Context} {i : Instance} {b : Binding}
    (h : new budget m bs context = .ok i) (hb : b ∈ i.program.imports) : b ∈ bs := by
  rw [new_eq_bind] at h
  obtain ⟨imports, hresolve, h⟩ := bind_eq_ok_iff.1 h
  obtain ⟨memory, _, h⟩ := bind_eq_ok_iff.1 h
  obtain ⟨filled, _, h⟩ := bind_eq_ok_iff.1 h
  obtain ⟨made, hstart, h⟩ := bind_eq_ok_iff.1 h
  split at h
  · cases h
    rw [program_start hstart] at hb
    exact mem_of_resolveImports hresolve (List.mem_toArray.1 hb)
  · cases h

end Wasm.Instance

namespace Driver

/-- Linking keeps the functions that were found, and nothing else changes but the state. -/
lemma link_eq_ok {Source Module Instance : Type} {d d' : Driver Source Module Instance}
    (h : d.link = (.ok (), d')) :
    ∃ m, d.module = some m ∧ d.registry.link (d.engine.imports m) = .ok d'.linked ∧
      d' = { d with linked := d'.linked, state := .linked } := by
  unfold link at h
  split at h
  · split at h
    · cases h
    next m hm =>
      split at h
      · cases h
      next bs hbs =>
        cases h
        exact ⟨m, hm, hbs, rfl⟩
  · cases h

variable {d d' : Driver Wasm.Source Wasm.Module Wasm.Instance} {budget : Wasm.Budget}
  {m : Wasm.Module} {p : Payload} {r : ByteArray}

/-- Instantiating gives what making the instance gives, if it is not refused. -/
lemma instantiate_eq_new (hengine : d.engine = Wasm.engine budget) (hmodule : d.module = some m)
    (hstate : d.state = .linked ∨ d.state = .ready) (hp : p.encode = .ok r) :
    (d.instantiate p).1 =
      (Wasm.Instance.new budget m d.linked (.new r d.config.logLimits)).map fun _ => () := by
  have hmake : d.engine.instantiate = Wasm.Instance.new budget := by rw [hengine]; rfl
  simp only [instantiate, if_pos hstate, hp, spawn, hmodule, hmake]
  cases Wasm.Instance.new budget m d.linked (.new r d.config.logLimits) <;> rfl

/-- After linking, whatever else was done since, an instantiation fails on the imports just if some
name is imported twice.  If no name is, the functions that were linked are those that are found, and
what comes of the instantiation is up to the memory, the data and the start function. -/
theorem instantiate_of_link (hengine : d.engine = Wasm.engine budget)
    (hlink : d.link = (.ok (), d')) :
    ∃ m, d.module = some m ∧
      (Wasm.Instance.resolveImports m d'.linked = .ok d'.linked ↔
        (m.imports.map ImportDecl.key).Nodup) ∧
      ∀ (uses : List (Use Wasm.Source)) (p : Payload) (r : ByteArray),
        ((d'.afterAll uses).state = .linked ∨ (d'.afterAll uses).state = .ready) →
        p.encode = .ok r →
          ((m.imports.map ImportDecl.key).Nodup → ((d'.afterAll uses).instantiate p).1 =
            (Wasm.Instance.newWith budget m d'.linked (.new r d.config.logLimits)).map
              fun _ => ()) ∧
          (¬(m.imports.map ImportDecl.key).Nodup →
            ∃ b ∈ d'.linked, ((d'.afterAll uses).instantiate p).1 =
              .error (.engine
                ("map entry `" ++ b.space ++ "::" ++ b.name ++ "` defined twice"))) := by
  obtain ⟨m, hmodule, hbindings, hd'⟩ := link_eq_ok hlink
  have himports : d.engine.imports m = m.imports := by rw [hengine]; rfl
  rw [himports] at hbindings
  have hresolve := Wasm.Instance.resolveImports_of_link hbindings
  refine ⟨m, hmodule, hresolve, fun uses p r hstate hp => ?_⟩
  have hislinked : d'.IsLinked := by
    rw [hd']
    exact ⟨DriverState.noConfusion, DriverState.noConfusion⟩
  -- Whatever was done since, engine, module, functions and settings are those of the link.
  have hsame := (afterAll_follows hislinked uses).same
  generalize d'.afterAll uses = d'' at hstate hsame ⊢
  have hengine'' : d''.engine = Wasm.engine budget := by rw [hsame, hd']; exact hengine
  have hmodule'' : d''.module = some m := by rw [hsame, hd']; exact hmodule
  have hlinked'' : d''.linked = d'.linked := by rw [hsame]
  have hconfig'' : d''.config = d.config := by rw [hsame, hd']
  rw [instantiate_eq_new hengine'' hmodule'' hstate hp, hlinked'', hconfig'',
    Wasm.Instance.new_eq_bind]
  constructor
  · intro hnodup
    simp only [hresolve.2 hnodup, Except.bind]
  · intro hrepeated
    rw [← Registry.keys_of_link hbindings] at hrepeated
    obtain ⟨b, hb, herror⟩ := Wasm.Instance.resolveImports_of_not_nodup (m := m) hrepeated
    exact ⟨b, hb, by simp only [herror, Except.bind, Except.map]⟩

/-! ## Modules that import functions of the bridge -/

/-- The module with a memory and the imports given. -/
def importing (imports : List Wasm.Import) : Wasm.Module where
  description :=
    { Wasm.Description.empty with
      imports := imports
      memories := [⟨1, none⟩]
      exports := [⟨Wasm.memoryExportName, .memory, 0⟩] }
  functions := #[]

/-- The import of the function that records a diagnostic. -/
def errorImport : Wasm.Import := ⟨Bridge.space, Bridge.errorName, .function ⟨[.i32, .i32], []⟩⟩

/-- The import of the function that gives the length of the reason. -/
def reasonLenImport : Wasm.Import := ⟨Bridge.space, Bridge.reasonLenName, .function ⟨[], [.i32]⟩⟩

/-- A driver for small guests with the functions of the bridge. -/
def small : Driver Wasm.Source Wasm.Module Wasm.Instance :=
  .new (Wasm.engine ⟨1000, pageSize⟩) Bridge.registry .standard

/-- The driver with the module linked. -/
def smallLinked (m : Wasm.Module) (bs : List Binding) :
    Driver Wasm.Source Wasm.Module Wasm.Instance :=
  { small.accept m with linked := bs, state := .linked }

/-- A module that is valid is loaded, and linked if functions are found for its imports. -/
lemma small_load_link {m : Wasm.Module} {b : List Binding}
    (hload : Wasm.Module.ofSource (.description m.description) = .ok m)
    (hlink : Bridge.registry.link m.imports = .ok b) :
    small.load (.description m.description) = (.ok (), small.accept m) ∧
      (small.accept m).link = (.ok (), smallLinked m b) := by
  constructor
  · have hcompile : small.engine.compile (.description m.description) = .ok m := hload
    have hnew : small.state = .unloaded := rfl
    simp only [load, loadWith, if_pos hnew, hcompile]
  · have hstate : (small.accept m).state = .loaded := rfl
    have hmodule : (small.accept m).module = some m := rfl
    have hbindings : (small.accept m).registry.link ((small.accept m).engine.imports m) = .ok b :=
      hlink
    simp only [link, if_pos hstate, hmodule, hbindings, transition, smallLinked]

/-- With imports of different names linking is enough. -/
theorem instantiate_of_link_distinct :
    ∃ d d', small.load (.description (importing [errorImport, reasonLenImport]).description) =
        (.ok (), d) ∧ d.link = (.ok (), d') ∧
      (d'.instantiate (.ofTransfer none ⟨none, 1⟩)).1 = .ok () := by
  obtain ⟨hload, hlink⟩ := small_load_link (m := importing [errorImport, reasonLenImport]) rfl rfl
  refine ⟨_, _, hload, hlink, ?_⟩
  obtain ⟨m, hm, _, hrest⟩ := instantiate_of_link rfl hlink
  cases hm
  have hnodup : ((importing [errorImport, reasonLenImport]).imports.map ImportDecl.key).Nodup := by
    decide
  have hmade := (hrest [] (.ofTransfer none ⟨none, 1⟩) _ (Or.inl rfl)
    (Payload.encode_eq_ok rfl)).1 hnodup
  refine hmade.trans ?_
  have hmemory : Wasm.Instance.newMemory (importing [errorImport, reasonLenImport])
      ⟨1000, pageSize⟩ = .ok (.zeros (1 * pageSize)) :=
    Wasm.Instance.newMemory_of_le (Nat.le_of_eq (Nat.one_mul pageSize))
  have hdata : (importing [errorImport, reasonLenImport]).description.data = [] := rfl
  have hstart : (importing [errorImport, reasonLenImport]).description.start = none := rfl
  have hexport : (importing [errorImport, reasonLenImport]).exportsMemory = true := by decide
  simp only [Wasm.Instance.newWith, hmemory, hdata, Wasm.Instance.fill, Wasm.Instance.start, hstart,
    hexport, if_true, bind, Except.bind, Except.map]

/-- A name that is imported twice links, and yet no instance can be made. -/
theorem instantiate_importing_twice :
    ∃ d d' message, small.load (.description (importing [errorImport, errorImport]).description) =
        (.ok (), d) ∧ d.link = (.ok (), d') ∧
      (d'.instantiate (.ofTransfer none ⟨none, 1⟩)).1 = .error (.engine message) := by
  obtain ⟨hload, hlink⟩ := small_load_link (m := importing [errorImport, errorImport])
    (b := [Bridge.errorBinding, Bridge.errorBinding]) rfl rfl
  have htwice : ¬([Bridge.errorBinding, Bridge.errorBinding].map Binding.key).Nodup := by decide
  obtain ⟨b, _, hb⟩ := Wasm.Instance.resolveImports_of_not_nodup
    (m := importing [errorImport, errorImport]) htwice
  have hfail := instantiate_eq_new (d := smallLinked (importing [errorImport, errorImport])
    [Bridge.errorBinding, Bridge.errorBinding]) (p := .ofTransfer none ⟨none, 1⟩) rfl rfl
    (Or.inl rfl) (Payload.encode_eq_ok rfl)
  simp only [Wasm.Instance.new_eq_bind, smallLinked, hb, Except.bind, Except.map] at hfail
  exact ⟨_, _, _, hload, hlink, hfail⟩

end Driver

end ContractHost
