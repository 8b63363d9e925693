import ContractHost.Proofs.Driver.FailedInstantiate

/-!
# How the parts of a driver fit together

A driver names its state and holds parts that are written one by one: a module, its exports, the
linked functions, a reason and an instance.  Whatever was done with a driver, its parts are those
that its state calls for (`Driver.Coherent`), and so no operation ever lacks what it needs: what
linking, instantiating and calling come to is up to the registry and the engine alone
(`Driver.Supplied`).  An attempt to load or link that fails changes nothing
(`Driver.coherent_of_reachable`).
-/

namespace ContractHost.Driver

variable {Source Module Instance σ : Type} {d d' : Driver Source Module Instance}
  {engine : Engine Source Module Instance} {registry : Registry} {config : Config}

/-! ## What can come about -/

/-- The drivers that can come about: a new one, what is left of one after any use of it, and what is
left in the middle of a run, when a new instance was asked for and the call is still to be made.
The iterations before that are a run as well, so that these are all drivers that an operation
meets. -/
inductive Reachable (engine : Engine Source Module Instance) (registry : Registry)
    (config : Config) : Driver Source Module Instance → Prop
  | new : Reachable engine registry config (.new engine registry config)
  | after {d : Driver Source Module Instance} (h : Reachable engine registry config d)
    (use : Use Source) : Reachable engine registry config (d.after use)
  | runRepeatedWith {σ : Type} {d : Driver Source Module Instance}
    (h : Reachable engine registry config d) (entry : String) (iterations : UInt64)
    (sink : σ → Log → σ) (start : σ) :
    Reachable engine registry config (d.runRepeatedWith entry iterations sink start).driver
  | spawn {d : Driver Source Module Instance} (h : Reachable engine registry config d)
    (hstate : d.state = .ready) : Reachable engine registry config d.spawn.2

/-- The parts of a driver are those that its state calls for. -/
structure Coherent (d : Driver Source Module Instance) : Prop where
  /-- No operation leaves the driver in one of the states on the way. -/
  settled : d.state ≠ .instantiated ∧ d.state ≠ .running
  /-- There is a module just if one was loaded. -/
  module_isSome : d.module.isSome ↔ d.state ≠ .unloaded
  /-- The exports are those that the engine declares of the module. -/
  declared_eq : ∀ m, d.module = some m → d.declared = d.engine.declaredExports m
  /-- Linked, ready and faulted, the functions are those that the registry has for the imports of
  the module. -/
  linked_eq : d.IsLinked → ∀ m, d.module = some m →
    d.registry.link (d.engine.imports m) = .ok d.linked
  /-- There is an instance just if the driver is ready or faulted. -/
  guest_isSome : d.guest.isSome ↔ d.state = .ready ∨ d.state = .faulted
  /-- An instance has a reason. -/
  reason_isSome : d.guest.isSome → d.reason.isSome

/-- What linking the module comes to. -/
def linkModule (d : Driver Source Module Instance) (m : Module) :
    Except SandboxError Unit × Driver Source Module Instance :=
  match d.registry.link (d.engine.imports m) with
  | .error e => (.error (.link e), d)
  | .ok bindings => (.ok (), { d with linked := bindings, state := .linked })

/-- What making an instance of the module for the reason comes to. -/
def spawnOf (d : Driver Source Module Instance) (m : Module) (reason : ByteArray) :
    Except SandboxError Unit × Driver Source Module Instance :=
  match d.engine.instantiate m d.linked (.new reason d.config.logLimits) with
  | .error e => (.error e, d)
  | .ok i => (.ok (), { d with guest := some i, state := .ready })

/-- Whatever an operation asks for is there, so that what it comes to is up to the registry and the
engine. -/
structure Supplied (d : Driver Source Module Instance) : Prop where
  /-- There is a module to be linked. -/
  link : d.state = .loaded → ∃ m, d.module = some m ∧ d.link = d.linkModule m
  /-- There is a module to be instantiated. -/
  instantiate : d.state = .linked ∨ d.state = .ready → ∀ p r, p.encode = .ok r →
    ∃ m, d.module = some m ∧ d.instantiate p = (d.rebind (some r)).spawnOf m r
  /-- There are a module and a reason to make a new instance in the middle of a run. -/
  spawn : d.state = .ready →
    ∃ m r, d.module = some m ∧ d.reason = some r ∧ d.spawn = d.spawnOf m r
  /-- There is an instance to be called. -/
  invoke : d.state = .ready → ∀ entry, checkEntryPoint d.declared entry = .ok () →
    ∃ i, d.guest = some i ∧ d.invoke entry = d.callIn i entry

namespace Coherent

/-! ## Operations -/

/-- A new driver has nothing. -/
lemma new (engine : Engine Source Module Instance) (registry : Registry) (config : Config) :
    (Driver.new engine registry config).Coherent where
  settled := ⟨DriverState.noConfusion, DriverState.noConfusion⟩
  module_isSome := by simp [Driver.new]
  declared_eq m hm := by cases hm
  linked_eq h := absurd rfl h.1
  guest_isSome := by simp [Driver.new]
  reason_isSome h := by cases h

/-- A driver with an instance is linked. -/
lemma isLinked_of_guest (h : d.Coherent) (hguest : d.guest.isSome) : d.IsLinked := by
  unfold IsLinked
  rcases h.guest_isSome.1 hguest with hstate | hstate <;>
    · rw [hstate]
      exact ⟨DriverState.noConfusion, DriverState.noConfusion⟩

/-- Loading adds the module and its exports. -/
lemma loadWith (h : d.Coherent) (compiled : Unit → Except SandboxError Module) :
    (d.loadWith compiled).2.Coherent := by
  unfold Driver.loadWith
  split
  next hstate =>
    split
    · exact h
    next m _ =>
      have hguest : ¬d.guest.isSome := fun hsome => (h.isLinked_of_guest hsome).1 hstate
      refine ⟨⟨DriverState.noConfusion, DriverState.noConfusion⟩, ?_, ?_, ?_, ?_, ?_⟩
      · simp [accept]
      · rintro m' hm'
        cases hm'
        rfl
      · exact fun hlinked => absurd rfl hlinked.2
      · exact iff_of_false hguest (by simp [accept])
      · exact fun hsome => absurd hsome hguest
  · exact h

/-- Linking adds the functions. -/
lemma link (h : d.Coherent) : d.link.2.Coherent := by
  unfold Driver.link
  split
  next hstate =>
    split
    · exact h
    next m hm =>
      split
      · exact h
      next bindings hbindings =>
        have hguest : ¬d.guest.isSome := fun hsome => (h.isLinked_of_guest hsome).2 hstate
        refine ⟨⟨DriverState.noConfusion, DriverState.noConfusion⟩, ?_, h.declared_eq, ?_, ?_, ?_⟩
        · simp [hm]
        · rintro _ m' hm'
          rw [hm] at hm'
          cases hm'
          exact hbindings
        · exact iff_of_false hguest (by simp)
        · exact fun hsome => absurd hsome hguest
  · exact h

/-- Once linked, a driver stays coherent if state, reason and instance are set to what fits. -/
lemma update (h : d.Coherent) (hlinked : d.IsLinked) {state : DriverState}
    {reason : Option ByteArray} {guest : Option Instance}
    (hstate : state = .linked ∨ state = .ready ∨ state = .faulted)
    (hguest : guest.isSome ↔ state = .ready ∨ state = .faulted)
    (hreason : guest.isSome → reason.isSome) :
    ({ d with state := state, reason := reason, guest := guest } :
      Driver Source Module Instance).Coherent where
  settled := by rcases hstate with rfl | rfl | rfl <;> simp
  module_isSome := by
    have hmodule := h.module_isSome.2 hlinked.1
    rcases hstate with rfl | rfl | rfl <;> simp [hmodule]
  declared_eq := h.declared_eq
  linked_eq _ := h.linked_eq hlinked
  guest_isSome := hguest
  reason_isSome := hreason

/-- A linked driver is linked, ready or faulted. -/
lemma state_of_isLinked (h : d.Coherent) (hlinked : d.IsLinked) :
    d.state = .linked ∨ d.state = .ready ∨ d.state = .faulted := by
  obtain ⟨hunloaded, hloaded⟩ := hlinked
  obtain ⟨hinstantiated, hrunning⟩ := h.settled
  cases hstate : d.state <;> simp_all

/-- A driver that is neither ready nor faulted has no instance. -/
lemma guest_eq_none (h : d.Coherent) (hstate : ¬(d.state = .ready ∨ d.state = .faulted)) :
    d.guest = none := by
  rw [← Option.not_isSome_iff_eq_none, h.guest_isSome]
  exact hstate

/-- Another reason can be bound. -/
lemma rebind (h : d.Coherent) (hlinked : d.IsLinked) (r : ByteArray) :
    (d.rebind (some r)).Coherent :=
  h.update hlinked (h.state_of_isLinked hlinked) h.guest_isSome fun _ => rfl

/-- Making an instance sets the state and the instance. -/
lemma spawn (h : d.Coherent) (hlinked : d.IsLinked) : d.spawn.2.Coherent := by
  unfold Driver.spawn
  split
  next m r _ hr =>
    split
    · exact h
    · refine h.update hlinked (Or.inr (Or.inl rfl)) (iff_of_true rfl (Or.inl rfl)) fun _ => ?_
      rw [hr]
      rfl
  · exact h

/-- A driver that can be instantiated is linked. -/
lemma isLinked_of_state (hstate : d.state = .linked ∨ d.state = .ready) : d.IsLinked := by
  unfold IsLinked
  rcases hstate with hstate | hstate <;>
    · rw [hstate]
      exact ⟨DriverState.noConfusion, DriverState.noConfusion⟩

/-- Instantiating sets the reason, the state and the instance. -/
lemma instantiate (h : d.Coherent) (p : Payload) : (d.instantiate p).2.Coherent := by
  unfold Driver.instantiate
  split
  next hstate =>
    split
    · exact h
    next r _ =>
      have hlinked := isLinked_of_state hstate
      exact (h.rebind hlinked r).spawn hlinked
  · exact h

/-- A call sets the state, and leaves an instance. -/
lemma invoke (h : d.Coherent) (entry : String) : (d.invoke entry).2.Coherent := by
  unfold Driver.invoke
  split
  next hstate =>
    have hlinked := isLinked_of_state (Or.inr hstate)
    have hguest : d.guest.isSome := h.guest_isSome.2 (Or.inl hstate)
    have hreason := h.reason_isSome hguest
    split
    · exact h.update hlinked (Or.inr (Or.inr rfl)) (iff_of_true hguest (Or.inr rfl)) h.reason_isSome
    · split
      · exact h
      · unfold callIn
        dsimp only
        split
        · exact h.update hlinked (Or.inr (Or.inl rfl)) (iff_of_true rfl (Or.inl rfl))
            fun _ => hreason
        · exact h.update hlinked (Or.inr (Or.inr rfl)) (iff_of_true rfl (Or.inr rfl))
            fun _ => hreason
  · exact h

/-- A run makes instances, if it asks for them, and calls. -/
lemma runWith (h : d.Coherent) (sink : σ → Log → σ) (entry : String) (n : Nat) (s : σ)
    (records : Nat) : (runWith sink entry n s records d).driver.Coherent := by
  have hspawn : ∀ d : Driver Source Module Instance, d.state = .ready → d.Coherent →
      d.spawn.2.Coherent := fun _ hstate h => h.spawn (isLinked_of_state (Or.inr hstate))
  have hinvoke : ∀ d : Driver Source Module Instance, d.Coherent → (d.invoke entry).2.Coherent :=
    fun _ h => h.invoke entry
  exact runWith_keeps (fun _ h => iterate_keeps hspawn hinvoke h) sink n s records h

/-- Writing to the memory keeps an instance. -/
lemma writeMemory (h : d.Coherent) (offset : Int32) (data : ByteArray) :
    (d.writeMemory offset data).2.Coherent := by
  unfold Driver.writeMemory
  split
  · exact h
  next i hi =>
    split
    · exact h
    · have hguest : d.guest.isSome := by rw [hi]; rfl
      have hstate := h.guest_isSome.1 hguest
      have hlinked := h.isLinked_of_guest hguest
      exact h.update hlinked (h.state_of_isLinked hlinked) (iff_of_true rfl hstate)
        fun _ => h.reason_isSome hguest

/-- Whatever a coherent driver is used for, it stays coherent. -/
lemma after (h : d.Coherent) (use : Use Source) : (d.after use).Coherent := by
  cases use with
  | load source => exact h.loadWith _
  | loadFile file => exact h.loadWith _
  | link => exact h.link
  | instantiate payload => exact h.instantiate payload
  | invoke entry => exact h.invoke entry
  | runRepeated entry iterations =>
    rw [Driver.after]
    rw [driver_runRepeated]
    exact h.runWith _ entry iterations.toNat _ 0
  | writeMemory offset data => exact h.writeMemory offset data

/-! ## What is there when it is asked for -/

/-- A driver that is not new has a module. -/
lemma exists_module (h : d.Coherent) (hstate : d.state ≠ .unloaded) :
    ∃ m, d.module = some m := Option.isSome_iff_exists.1 (h.module_isSome.2 hstate)

/-- With a module, linking is up to the registry. -/
lemma link_eq_linkModule {m : Module} (hstate : d.state = .loaded) (hm : d.module = some m) :
    d.link = d.linkModule m := by
  rw [Driver.link, if_pos hstate]
  split
  next hnone => cases hm.symm.trans hnone
  next m' hm' =>
    cases hm.symm.trans hm'
    rfl

/-- With a module and a reason, making an instance is up to the engine. -/
lemma spawn_eq_spawnOf {m : Module} {r : ByteArray} (hm : d.module = some m)
    (hr : d.reason = some r) : d.spawn = d.spawnOf m r := by
  unfold Driver.spawn
  split
  next m' r' hm' hr' =>
    cases hm.symm.trans hm'
    cases hr.symm.trans hr'
    rfl
  next hnone => exact absurd hr (hnone m r hm)

/-- A coherent driver has what its operations ask for. -/
lemma supplied (h : d.Coherent) : d.Supplied where
  link hstate := by
    obtain ⟨m, hm⟩ := h.exists_module (by rw [hstate]; exact DriverState.noConfusion)
    exact ⟨m, hm, link_eq_linkModule hstate hm⟩
  instantiate hstate p r hr := by
    obtain ⟨m, hm⟩ := h.exists_module (isLinked_of_state hstate).1
    have hspawn := spawn_eq_spawnOf (show (d.rebind (some r)).module = some m from hm) rfl
    refine ⟨m, hm, ?_⟩
    rw [Driver.instantiate, if_pos hstate, hr]
    exact hspawn
  spawn hstate := by
    obtain ⟨m, hm⟩ := h.exists_module (isLinked_of_state (Or.inr hstate)).1
    obtain ⟨r, hr⟩ := Option.isSome_iff_exists.1
      (h.reason_isSome (h.guest_isSome.2 (Or.inl hstate)))
    exact ⟨m, r, hm, hr, spawn_eq_spawnOf hm hr⟩
  invoke hstate entry hentry := by
    obtain ⟨i, hi⟩ := Option.isSome_iff_exists.1 (h.guest_isSome.2 (Or.inl hstate))
    refine ⟨i, hi, ?_⟩
    simp only [Driver.invoke, if_pos hstate, hentry, hi]

end Coherent

/-! ## What never changes -/

/-- What follows a driver has its engine, registry and settings. -/
lemma Follows.fixed (h : d.Follows d') :
    d'.engine = d.engine ∧ d'.registry = d.registry ∧ d'.config = d.config := by
  rw [h.same]
  exact ⟨rfl, rfl, rfl⟩

/-- Whatever a driver is used for, engine, registry and settings stay. -/
lemma after_fixed (d : Driver Source Module Instance) (use : Use Source) :
    (d.after use).engine = d.engine ∧ (d.after use).registry = d.registry ∧
      (d.after use).config = d.config := by
  have hload : ∀ compiled, (d.loadWith compiled).2.engine = d.engine ∧
      (d.loadWith compiled).2.registry = d.registry ∧
        (d.loadWith compiled).2.config = d.config := by
    intro compiled
    unfold loadWith accept
    split
    · split <;> exact ⟨rfl, rfl, rfl⟩
    · exact ⟨rfl, rfl, rfl⟩
  cases use with
  | load source => exact hload _
  | loadFile file => exact hload _
  | link =>
    rw [after]
    unfold link
    split
    · split
      · exact ⟨rfl, rfl, rfl⟩
      · split <;> exact ⟨rfl, rfl, rfl⟩
    · exact ⟨rfl, rfl, rfl⟩
  | instantiate payload => exact (instantiate_follows d payload).fixed
  | invoke entry => exact (invoke_follows d entry).fixed
  | runRepeated entry iterations => exact (runRepeated_follows d entry iterations).fixed
  | writeMemory offset data => exact (writeMemory_follows d offset data).fixed

/-- Loading that fails changes nothing. -/
lemma loadWith_error {compiled : Unit → Except SandboxError Module} {e : SandboxError}
    (h : d.loadWith compiled = (.error e, d')) : d' = d := by
  unfold loadWith at h
  split at h
  · split at h
    · cases h
      rfl
    · cases h
  · cases h
    rfl

/-- Linking that fails changes nothing. -/
lemma link_error {e : SandboxError} (h : d.link = (.error e, d')) : d' = d := by
  unfold link at h
  split at h
  · split at h
    · cases h
      rfl
    · split at h
      · cases h
        rfl
      · cases h
  · cases h
    rfl

/-! ## All drivers -/

/-- Every driver that can come about is that of its engine, registry and settings, and coherent. -/
lemma Reachable.coherent (h : Reachable engine registry config d) :
    d.engine = engine ∧ d.registry = registry ∧ d.config = config ∧ d.Coherent := by
  induction h with
  | new => exact ⟨rfl, rfl, rfl, .new engine registry config⟩
  | @after d _ use ih =>
    obtain ⟨hengine, hregistry, hconfig, hcoherent⟩ := ih
    obtain ⟨hengine', hregistry', hconfig'⟩ := after_fixed d use
    exact ⟨hengine'.trans hengine, hregistry'.trans hregistry, hconfig'.trans hconfig,
      hcoherent.after use⟩
  | @runRepeatedWith _ d _ entry iterations sink start ih =>
    obtain ⟨hengine, hregistry, hconfig, hcoherent⟩ := ih
    obtain ⟨hengine', hregistry', hconfig'⟩ :=
      (runWith_follows sink entry iterations.toNat start 0 d).fixed
    exact ⟨hengine'.trans hengine, hregistry'.trans hregistry, hconfig'.trans hconfig,
      hcoherent.runWith sink entry iterations.toNat start 0⟩
  | @spawn d _ hstate ih =>
    obtain ⟨hengine, hregistry, hconfig, hcoherent⟩ := ih
    obtain ⟨hengine', hregistry', hconfig'⟩ := (spawn_follows d).fixed
    exact ⟨hengine'.trans hengine, hregistry'.trans hregistry, hconfig'.trans hconfig,
      hcoherent.spawn (Coherent.isLinked_of_state (Or.inr hstate))⟩

/-- What is left after several uses can come about. -/
lemma Reachable.afterAll (h : Reachable engine registry config d) (uses : List (Use Source)) :
    Reachable engine registry config (d.afterAll uses) := by
  induction uses generalizing d with
  | nil => exact h
  | cons use uses ih => exact ih (h.after use)

/-- Whatever was done with a driver, it is that of its engine, registry and settings; its parts are
those that its state calls for; no operation lacks what it needs; and an attempt to load or link
that fails changes nothing. -/
theorem coherent_of_reachable (h : Reachable engine registry config d) :
    d.engine = engine ∧ d.registry = registry ∧ d.config = config ∧ d.Coherent ∧ d.Supplied ∧
      (∀ source e d', d.load source = (.error e, d') → d' = d) ∧
      (∀ file e d', d.loadFile file = (.error e, d') → d' = d) ∧
      ∀ e d', d.link = (.error e, d') → d' = d := by
  obtain ⟨hengine, hregistry, hconfig, hcoherent⟩ := h.coherent
  exact ⟨hengine, hregistry, hconfig, hcoherent, hcoherent.supplied,
    fun _ _ _ => loadWith_error, fun _ _ _ => loadWith_error, fun _ _ => link_error⟩

/-- A driver that faulted in a run on new instances was linked, and still has an instance and a
reason. -/
theorem coherent_of_reachable_faulted :
    ∃ r d, Reachable (onlyFor r) .empty { Config.standard with instancePolicy := .fresh } d ∧
      d.state = .faulted ∧ d.registry.link [] = .ok d.linked ∧ d.guest.isSome ∧
      d.reason.isSome := by
  obtain ⟨r, hr⟩ : ∃ r, (Payload.ofTransfer none ⟨none, 1⟩).encode = .ok r :=
    ⟨_, Payload.encode_eq_ok rfl⟩
  have hready : Reachable (onlyFor r) .empty { Config.standard with instancePolicy := .fresh }
      (readyFor r) := by
    have hsteps := (((Reachable.new.after (.load ())).after .link).after
      (.instantiate (.ofTransfer none ⟨none, 1⟩)) :
        Reachable (onlyFor r) .empty { Config.standard with instancePolicy := .fresh } _)
    simp only [after, instantiate_eq_readyFor hr] at hsteps
    exact hsteps
  have hspawn : (readyFor r).spawn = (.ok (), readyFor r) := by
    simp [spawn, transition, readyFor, onlyFor, Context.new, Config.standard]
  have hfaulted : ((readyFor r).after (.runRepeated "other" 2)).state = .faulted := by
    have htwo : (2 : UInt64).toNat = 2 := rfl
    have hiterate : (readyFor r).iterate "other" =
        (.error (.exportNotFound "other"), { readyFor r with state := .faulted }) := by
      have hinvoke : (readyFor r).invoke "other" =
        (.error (.exportNotFound "other"), { readyFor r with state := .faulted }) := rfl
      simp only [iterate, hspawn, hinvoke, ite_self]
    simp only [after, runRepeated, runRepeatedWith, htwo, runWith, hiterate]
  -- All else follows from the state, as the driver came about in the ordinary way.
  have hrun := hready.after (.runRepeated "other" 2)
  obtain ⟨_, _, _, hcoherent, _⟩ := coherent_of_reachable hrun
  have hguest := hcoherent.guest_isSome.2 (Or.inr hfaulted)
  have hlinked : ((readyFor r).after (.runRepeated "other" 2)).IsLinked := by
    simp [IsLinked, hfaulted]
  obtain ⟨m, hm⟩ := hcoherent.exists_module hlinked.1
  have himports : ((readyFor r).after (.runRepeated "other" 2)).engine.imports m = [] := by
    rw [(after_fixed (readyFor r) _).1]
    rfl
  have hlink := hcoherent.linked_eq hlinked m hm
  rw [himports] at hlink
  exact ⟨r, _, hrun, hfaulted, hlink, hguest, hcoherent.reason_isSome hguest⟩

end ContractHost.Driver
