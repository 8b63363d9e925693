import ContractHost.Proofs.Driver.Coherence
import ContractHost.Proofs.Driver.Report
import ContractHost.Proofs.Wasm.HostCalls

/-!
# What a new instance knows of the past

A new instance is made of the module, the linked functions, the reason and the limits of the log.
Of these the driver changes only the reason, and it binds the reason anew with every instantiation.
So whatever was done with a driver before, an instantiation makes of it what it makes of a new
driver that has loaded and linked the same module (`Driver.instantiate_forgets`).  Where every
iteration of a run is given a new instance, all iterations are therefore the same call
(`Driver.runRepeatedWith_fresh`).
-/

namespace ContractHost

/-- The engine makes the module of some content or of some file. -/
def Engine.Provides {Source Module Instance : Type} (engine : Engine Source Module Instance)
    (m : Module) : Prop :=
  (∃ source, engine.compile source = .ok m) ∨ ∃ file, engine.compileFile file = .ok m

namespace Driver

variable {Source Module Instance σ : Type} {d d' : Driver Source Module Instance}
  {engine : Engine Source Module Instance} {registry : Registry} {config : Config} {m : Module}
  {entry : String} {log : Log}

/-! ## Loading and making instances -/

/-- A new driver takes what is compiled. -/
lemma loadWith_new_eq_ok_iff {compiled : Unit → Except SandboxError Module} :
    (new engine registry config).loadWith compiled = (.ok (), d) ↔
      ∃ m, compiled () = .ok m ∧ d = (new engine registry config).accept m := by
  rw [loadWith, if_pos (show (new engine registry config).state = .unloaded from rfl)]
  cases compiled () with
  | error e => simp
  | ok m => simp [eq_comm]

/-- An instance is made of the module, the linked functions, the reason and the limits, and then
only state and instance are different. -/
lemma spawn_eq_ok_iff : d.spawn = (.ok (), d') ↔
    ∃ m r i, d.module = some m ∧ d.reason = some r ∧
      d.engine.instantiate m d.linked (.new r d.config.logLimits) = .ok i ∧
      d' = { d with guest := some i, state := .ready } := by
  constructor
  · intro h
    unfold spawn at h
    split at h
    next m r hm hr =>
      split at h
      · cases h
      next i hi =>
        cases h
        exact ⟨m, r, i, hm, hr, hi, rfl⟩
    next => cases h
  · rintro ⟨m, r, i, hm, hr, hi, rfl⟩
    simp only [spawn, hm, hr, hi, transition]

/-- An instantiation that succeeds binds the reason and makes an instance for it. -/
lemma spawn_of_instantiate {p : Payload} (h : d.instantiate p = (.ok (), d')) :
    ∃ r, p.encode = .ok r ∧ (d.rebind (some r)).spawn = (.ok (), d') := by
  unfold instantiate at h
  split at h
  · split at h
    · cases h
    next r hr => exact ⟨r, hr, h⟩
  · cases h

/-- Whatever instance is there, making one again makes the same one. -/
lemma spawn_again (h : d.spawn = (.ok (), d')) (guest : Option Instance) :
    { d' with guest := guest }.spawn = (.ok (), d') := by
  obtain ⟨m, r, i, hm, hr, hi, rfl⟩ := spawn_eq_ok_iff.1 h
  exact spawn_eq_ok_iff.2 ⟨m, r, i, hm, hr, hi, rfl⟩

/-- A new driver comes to have linked any module that compiles and whose imports link. -/
lemma reachable_linked {source : Source} {bs : List Binding}
    (hcompile : engine.compile source = .ok m)
    (hlink : registry.link (engine.imports m) = .ok bs) :
    Reachable engine registry config
      { (new engine registry config).accept m with linked := bs, state := .linked } := by
  have hload : (new engine registry config).load source =
      (.ok (), (new engine registry config).accept m) :=
    loadWith_new_eq_ok_iff.2 ⟨m, hcompile, rfl⟩
  have hlinks : ((new engine registry config).accept m).link =
      (.ok (), { (new engine registry config).accept m with linked := bs, state := .linked }) := by
    rw [Coherent.link_eq_linkModule rfl rfl, linkModule]
    simp only [accept, transition, new, hlink]
  have hnew : Reachable engine registry config (new engine registry config) := .new
  have hlinked := (hnew.after (.load source)).after .link
  simp only [after, hload, hlinks] at hlinked
  exact hlinked

/-- Once it has linked the module, it comes to hold an instance for any reason for which one can be
made. -/
lemma Reachable.ready {i : Instance} {p : Payload} {r : ByteArray}
    (h : Reachable engine registry config d) (hstate : d.state = .linked)
    (hm : d.module = some m) (hr : p.encode = .ok r)
    (hmade : d.engine.instantiate m d.linked (.new r d.config.logLimits) = .ok i) :
    Reachable engine registry config
      { d with state := .ready, reason := some r, guest := some i } := by
  have hspawn : (d.rebind (some r)).spawn =
      (.ok (), { d with state := .ready, reason := some r, guest := some i }) :=
    spawn_eq_ok_iff.2 ⟨m, r, i, hm, rfl, hmade, rfl⟩
  have hinstantiate : d.instantiate p =
      (.ok (), { d with state := .ready, reason := some r, guest := some i }) := by
    rw [instantiate, if_pos (Or.inl hstate), hr]
    exact hspawn
  have hready := h.after (.instantiate p)
  simp only [Driver.after, hinstantiate] at hready
  exact hready

/-! ## Drivers of a guest that grows -/

variable {policy : InstancePolicy} {k : Nat}

/-- The settings with a policy for the instances of a run. -/
def growingConfig (policy : InstancePolicy) : Config :=
  { Config.standard with instancePolicy := policy }

/-- The registry of the one host function that the guest calls. -/
def growingRegistry : Registry := .register .empty Wasm.tell

/-- The driver that has loaded the module. -/
def growingLoaded (policy : InstancePolicy) : Driver Wasm.Source Wasm.Module Wasm.Instance :=
  (new (Wasm.engine Wasm.growingBudget) growingRegistry (growingConfig policy)).accept Wasm.growing

/-- The driver that has linked the module. -/
def growingLinked (policy : InstancePolicy) : Driver Wasm.Source Wasm.Module Wasm.Instance :=
  { growingLoaded policy with linked := [Wasm.tell], state := .linked }

/-- The driver with an instance for a reason, the pages of its memory, and its open log. -/
def growingReady (policy : InstancePolicy) (reason : ByteArray) (k : Nat) (log : Log) :
    Driver Wasm.Source Wasm.Module Wasm.Instance :=
  { growingLinked policy with
    state := .ready
    reason := some reason
    guest := some (Wasm.growingInstance k ⟨reason, log, .standard⟩) }

/-- The log with the record of a number of pages. -/
def pagesLog (pages : UInt32) : Log := .ofList [Wasm.pagesRecord pages]

/-- The module can be loaded. -/
lemma load_growing (policy : InstancePolicy) :
    (new (Wasm.engine Wasm.growingBudget) growingRegistry (growingConfig policy)).load
      (.description Wasm.growing.description) = (.ok (), growingLoaded policy) :=
  loadWith_new_eq_ok_iff.2 ⟨Wasm.growing, Wasm.ofSource_growing, rfl⟩

/-- The module can be linked. -/
lemma link_growingLoaded (policy : InstancePolicy) :
    (growingLoaded policy).link = (.ok (), growingLinked policy) := rfl

/-- The module can be instantiated, and then has one page. -/
lemma instantiate_growingLinked {p : Payload} {r : ByteArray} (h : p.encode = .ok r) :
    (growingLinked policy).instantiate p = (.ok (), growingReady policy r 1 (pagesLog 1)) := by
  have hnew : (growingLinked policy).engine.instantiate Wasm.growing [Wasm.tell]
      (.new r (growingLinked policy).config.logLimits) =
        .ok (Wasm.growingInstance 1 (Wasm.pagesContext r 1)) := Wasm.new_growing r
  have hspawn : ((growingLinked policy).rebind (some r)).spawn =
      (.ok (), growingReady policy r 1 (pagesLog 1)) :=
    spawn_eq_ok_iff.2 ⟨Wasm.growing, r, _, rfl, rfl, hnew, rfl⟩
  have hlinked : (growingLinked policy).state = .linked := rfl
  rw [instantiate, if_pos (Or.inl hlinked), h]
  exact hspawn

/-- The entry point can be called as long as there is room, and then there is one page more. -/
lemma invoke_growingReady (r : ByteArray) (hk : k < 3) (log : Log) :
    (growingReady policy r k log).invoke "main" =
      (.ok (pagesLog (UInt32.ofNat (k + 1))), growingReady policy r (k + 1) .empty) := by
  have hready : (growingReady policy r k log).state = .ready := rfl
  have hentry : checkEntryPoint (growingReady policy r k log).declared "main" = .ok () := rfl
  have hguest : (growingReady policy r k log).guest =
      some (Wasm.growingInstance k ⟨r, log, .standard⟩) := rfl
  have hcall : (growingReady policy r k log).engine.call
      ((growingReady policy r k log).engine.takeLog
        (Wasm.growingInstance k ⟨r, log, .standard⟩)).2 "main" =
          (.ok (), Wasm.growingInstance (k + 1) (Wasm.pagesContext r (UInt32.ofNat (k + 1)))) :=
    Wasm.call_growing r hk
  simp only [invoke, hready, if_true, hentry, hguest, callIn, hcall]
  rfl

/-! ## Earlier uses -/

/-- The driver is a new one that has loaded a module, from its content or from a file. -/
def NewlyLoaded (engine : Engine Source Module Instance) (registry : Registry) (config : Config)
    (d : Driver Source Module Instance) : Prop :=
  (∃ source, (new engine registry config).load source = (.ok (), d)) ∨
    ∃ file, (new engine registry config).loadFile file = (.ok (), d)

/-- A new driver can load what its engine provides, and nothing else. -/
lemma newlyLoaded_iff : NewlyLoaded engine registry config d ↔
    ∃ m, engine.Provides m ∧ d = (new engine registry config).accept m := by
  unfold NewlyLoaded Engine.Provides load loadFile
  simp only [loadWith_new_eq_ok_iff]
  constructor
  · rintro (⟨source, m, hm, rfl⟩ | ⟨file, m, hm, rfl⟩)
    · exact ⟨m, Or.inl ⟨source, hm⟩, rfl⟩
    · exact ⟨m, Or.inr ⟨file, hm⟩, rfl⟩
  · rintro ⟨m, ⟨source, hm⟩ | ⟨file, hm⟩, rfl⟩
    · exact Or.inl ⟨source, m, hm, rfl⟩
    · exact Or.inr ⟨file, m, hm, rfl⟩

/-- After loading there is the module that was there, or the one that was compiled. -/
lemma module_loadWith {compiled : Unit → Except SandboxError Module}
    (h : (d.loadWith compiled).2.module = some m) : d.module = some m ∨ compiled () = .ok m := by
  unfold loadWith at h
  split at h
  · split at h
    · exact Or.inl h
    next m' hm' =>
      have hsame : m' = m := Option.some.inj h
      rw [hsame] at hm'
      exact Or.inr hm'
  · exact Or.inl h

/-- Linking keeps the module. -/
lemma module_link (d : Driver Source Module Instance) : d.link.2.module = d.module := by
  unfold link
  split
  · split
    · rfl
    · split <;> rfl
  · rfl

/-- What follows a driver has its module. -/
lemma Follows.module_eq (h : d.Follows d') : d'.module = d.module := by
  rw [h.same]

/-- What follows a driver has the exports of its module. -/
lemma Follows.declared_eq (h : d.Follows d') : d'.declared = d.declared := by
  rw [h.same]

/-- The module of a driver is one that its engine provides. -/
lemma Reachable.provides (h : Reachable engine registry config d) (hm : d.module = some m) :
    engine.Provides m := by
  induction h with
  | new => cases hm
  | @after d h use ih =>
    have hengine : d.engine = engine := h.coherent.1
    have hkept : (d.after use).module = d.module → engine.Provides m := by
      intro hsame
      exact ih (hsame.symm.trans hm)
    cases use with
    | load source =>
      rcases module_loadWith hm with hm | hm
      · exact ih hm
      · rw [hengine] at hm
        exact Or.inl ⟨source, hm⟩
    | loadFile file =>
      rcases module_loadWith hm with hm | hm
      · exact ih hm
      · rw [hengine] at hm
        exact Or.inr ⟨file, hm⟩
    | link => exact hkept (module_link d)
    | instantiate payload => exact hkept (instantiate_follows d payload).module_eq
    | invoke entry => exact hkept (invoke_follows d entry).module_eq
    | runRepeated entry iterations => exact hkept (runRepeated_follows d entry iterations).module_eq
    | writeMemory offset data => exact hkept (writeMemory_follows d offset data).module_eq
  | @runRepeatedWith _ d _ entry iterations sink start ih =>
    have hfollows := runWith_follows sink entry iterations.toNat start 0 d
    exact ih (hfollows.module_eq.symm.trans hm)
  | @spawn d _ _ ih =>
    exact ih ((spawn_follows d).module_eq.symm.trans hm)

/-- Of drivers that can be instantiated, and differ in state, reason and instance only, an
instantiation that succeeds makes the same; and if it fails, it fails alike. -/
lemma instantiate_agrees {state : DriverState} {reason : Option ByteArray}
    {guest : Option Instance} (hm : d.module = some m) (hd : d.state = .linked ∨ d.state = .ready)
    (hstate : state = .linked ∨ state = .ready) (p : Payload) :
    ({ d with state := state, reason := reason, guest := guest }.instantiate p).1 =
        (d.instantiate p).1 ∧
      ((d.instantiate p).1 = .ok () →
        { d with state := state, reason := reason, guest := guest }.instantiate p =
          d.instantiate p) := by
  simp only [instantiate, if_pos hd, if_pos hstate]
  cases p.encode with
  | error e => exact ⟨rfl, fun h => by cases h⟩
  | ok r =>
    simp only [spawn, hm]
    cases d.engine.instantiate m d.linked (.new r d.config.logLimits) with
    | error e => exact ⟨rfl, fun h => by cases h⟩
    | ok i => exact ⟨rfl, fun _ => rfl⟩

/-- Whatever was done with a driver until it can be instantiated, a new driver can load the same
module.  If it has done so, it can be linked, and an instantiation has the same answer as that of
the driver that was used.  If it succeeds, both are the very same driver from then on. -/
theorem instantiate_forgets (h : Reachable engine registry config d)
    (hstate : d.state = .linked ∨ d.state = .ready) :
    (∃ d₁, NewlyLoaded engine registry config d₁ ∧ d₁.module = d.module) ∧
      ∀ d₁, NewlyLoaded engine registry config d₁ → d₁.module = d.module →
        ∃ d₂, d₁.link = (.ok (), d₂) ∧ ∀ p,
          (d₂.instantiate p).1 = (d.instantiate p).1 ∧
          ((d.instantiate p).1 = .ok () → d₂.instantiate p = d.instantiate p) := by
  obtain ⟨hengine, hregistry, hconfig, hcoherent⟩ := h.coherent
  have hlinked := Coherent.isLinked_of_state hstate
  obtain ⟨m, hm⟩ := hcoherent.exists_module hlinked.1
  refine ⟨⟨_, newlyLoaded_iff.2 ⟨m, h.provides hm, rfl⟩, hm.symm⟩, fun d₁ hd₁ hmodule => ?_⟩
  obtain ⟨m', _, rfl⟩ := newlyLoaded_iff.1 hd₁
  have hsame : m' = m := by
    rw [hm] at hmodule
    exact Option.some.inj hmodule
  subst hsame
  have hdeclared := hcoherent.declared_eq m' hm
  have hlink := hcoherent.linked_eq hlinked m' hm
  -- All that is left of the past is state, reason and instance.
  have hnew : { (new engine registry config).accept m' with linked := d.linked, state := .linked } =
      { d with state := .linked, reason := none, guest := none } := by
    simp only [accept, transition, new, hengine, hregistry, hconfig, hm, hdeclared]
  have hlinks : ((new engine registry config).accept m').link =
      (.ok (), { d with state := .linked, reason := none, guest := none }) := by
    rw [hengine, hregistry] at hlink
    rw [← hnew, Coherent.link_eq_linkModule rfl rfl, linkModule]
    simp only [accept, transition, new, hlink]
  exact ⟨_, hlinks, instantiate_agrees hm hstate (Or.inl rfl)⟩

/-- A driver whose memory has grown to two pages makes of a second reason what a new one does: an
instance with one page, whose log has the record of its start alone. -/
theorem instantiate_forgets_growing :
    ∃ r r', Reachable (Wasm.engine Wasm.growingBudget) growingRegistry (growingConfig .reuse)
        (growingReady .reuse r 2 .empty) ∧
      (growingReady .reuse r 2 .empty).instantiate (.ofTransfer none ⟨none, 2⟩) =
        (.ok (), growingReady .reuse r' 1 (pagesLog 1)) ∧
      (growingLinked .reuse).instantiate (.ofTransfer none ⟨none, 2⟩) =
        (.ok (), growingReady .reuse r' 1 (pagesLog 1)) := by
  obtain ⟨r, hr⟩ : ∃ r, (Payload.ofTransfer none ⟨none, 1⟩).encode = .ok r :=
    ⟨_, Payload.encode_eq_ok rfl⟩
  obtain ⟨r', hr'⟩ : ∃ r, (Payload.ofTransfer none ⟨none, 2⟩).encode = .ok r :=
    ⟨_, Payload.encode_eq_ok rfl⟩
  have hused : Reachable (Wasm.engine Wasm.growingBudget) growingRegistry (growingConfig .reuse)
      (growingReady .reuse r 2 .empty) := by
    have hloaded := (@Reachable.new _ _ _ (Wasm.engine Wasm.growingBudget) growingRegistry
      (growingConfig .reuse)).after (.load (.description Wasm.growing.description))
    have hready := (hloaded.after .link).after (.instantiate (.ofTransfer none ⟨none, 1⟩))
    have huses := hready.after (.invoke "main")
    simp only [after, load_growing, link_growingLoaded, instantiate_growingLinked hr,
      invoke_growingReady r (by decide : 1 < 3)] at huses
    exact huses
  obtain ⟨_, hforgets⟩ := instantiate_forgets hused (Or.inr rfl)
  obtain ⟨d₂, hlink, hsame⟩ := hforgets _ (Or.inl ⟨_, load_growing .reuse⟩) rfl
  have hlinked : d₂ = growingLinked .reuse :=
    congrArg Prod.snd (hlink.symm.trans (link_growingLoaded .reuse))
  subst hlinked
  obtain ⟨hanswer, hagrees⟩ := hsame (.ofTransfer none ⟨none, 2⟩)
  have hnew := @instantiate_growingLinked .reuse _ _ hr'
  rw [hnew] at hanswer hagrees
  exact ⟨r, r', hused, (hagrees hanswer.symm).symm, hnew⟩

/-! ## Runs on new instances -/

/-- A call that succeeds changes nothing but the instance. -/
lemma eq_of_invoke_eq_ok (h : d.invoke entry = (.ok log, d')) :
    d' = { d with guest := d'.guest } := by
  have hready := state_of_invoke_eq_ok h
  unfold invoke at h
  rw [if_pos hready] at h
  split at h
  · cases h
  · split at h
    · cases h
    · unfold callIn at h
      dsimp only at h
      split at h
      · cases h
        rw [← hready]
      · cases h

/-- Where every iteration is given a new instance, it is a call of that instance. -/
lemma iterate_of_spawn (hpolicy : d.config.instancePolicy = .fresh) (hready : d.state = .ready)
    (hspawn : d.spawn = (.ok (), d')) (entry : String) : d.iterate entry = d'.invoke entry := by
  rw [iterate, if_pos ⟨hpolicy, hready⟩, hspawn]

/-- The driver whose instance an iteration calls: it has a new one, if the settings ask for that. -/
def opened (d : Driver Source Module Instance) : Driver Source Module Instance :=
  if d.config.instancePolicy = .fresh ∧ d.state = .ready then d.spawn.2 else d

/-- An iteration fails because there is no new instance, or it is a call of the instance that is
opened. -/
lemma iterate_cases (d : Driver Source Module Instance) (entry : String) :
    (∃ e, d.state = .ready ∧ d.spawn = (.error e, d) ∧ d.iterate entry = (.error e, d)) ∨
      d.iterate entry = d.opened.invoke entry := by
  unfold iterate opened
  by_cases hfresh : d.config.instancePolicy = .fresh ∧ d.state = .ready
  · rw [if_pos hfresh, if_pos hfresh]
    rcases hspawn : d.spawn with ⟨e | _, d'⟩
    · obtain rfl := spawn_error hspawn
      exact Or.inl ⟨e, hfresh.2, rfl, rfl⟩
    · exact Or.inr rfl
  · rw [if_neg hfresh, if_neg hfresh]
    exact Or.inr rfl

/-- What is left after an iteration can come about. -/
lemma Reachable.iterate (h : Reachable engine registry config d) (entry : String) :
    Reachable engine registry config (d.iterate entry).2 :=
  iterate_keeps (fun _ hready h => h.spawn hready) (fun _ h => h.after (.invoke entry)) h

/-- A driver with an instance that was opened can come about. -/
lemma Reachable.opened (h : Reachable engine registry config d) :
    Reachable engine registry config d.opened := by
  unfold Driver.opened
  split
  next hfresh => exact h.spawn hfresh.2
  next => exact h

/-- Opening an instance sets the state and the instance. -/
lemma opened_follows (d : Driver Source Module Instance) : d.Follows d.opened := by
  unfold opened
  split
  · exact spawn_follows d
  · exact .refl d

/-- If an iteration succeeds whatever instance is there, so do any number of them, all with the same
log. -/
lemma iterates_replicate {left : Option Instance} (hiterate : ∀ guest,
      { d with guest := guest }.iterate entry = (.ok log, { d with guest := left }))
    (k : Nat) (guest : Option Instance) :
    Iterates entry { d with guest := guest } (List.replicate (k + 1) log)
      { d with guest := left } := by
  induction k generalizing guest with
  | zero => exact .cons (hiterate guest) (.nil _)
  | succ k ih => exact .cons (hiterate guest) (ih left)

/-- Right after an instantiation, a run on new instances comes to what a single call comes to.  If
the call fails, so does the run, before anything is handed to the sink.  Otherwise the run hands
over the log of the call as often as asked, and leaves the driver that the call leaves, with its
memory.  Nothing passes from one iteration to the next: whatever instance is there, an iteration is
that call. -/
theorem runRepeatedWith_fresh {p : Payload} (hpolicy : d.config.instancePolicy = .fresh)
    (hmade : d.instantiate p = (.ok (), d')) (entry : String) {n : UInt64} (hn : 0 < n)
    (sink : σ → Log → σ) (start : σ) :
    ((∃ e left, d'.invoke entry = (.error e, left) ∧
        d'.runRepeatedWith entry n sink start = ⟨.error e, start, 0, left⟩) ∨
      ∃ log left, d'.invoke entry = (.ok log, left) ∧
        d'.runRepeatedWith entry n sink start =
          ⟨.ok (), (List.replicate n.toNat log).foldl sink start, n.toNat * log.length, left⟩) ∧
      ∀ guest, { d' with guest := guest }.iterate entry = d'.invoke entry := by
  obtain ⟨r, _, hspawn⟩ := spawn_of_instantiate hmade
  have hpolicy' : d'.config.instancePolicy = .fresh := by
    have hmakes := instantiate_follows d p
    rw [hmade] at hmakes
    rw [hmakes.fixed.2.2]
    exact hpolicy
  have hready : d'.state = .ready := by
    obtain ⟨_, _, _, _, _, _, rfl⟩ := spawn_eq_ok_iff.1 hspawn
    rfl
  have hiterate : ∀ guest, { d' with guest := guest }.iterate entry = d'.invoke entry := by
    intro guest
    refine iterate_of_spawn ?_ ?_ (spawn_again hspawn guest) entry
    · exact hpolicy'
    · exact hready
  refine ⟨?_, hiterate⟩
  obtain ⟨k, hk⟩ : ∃ k, n.toNat = k + 1 :=
    Nat.exists_eq_succ_of_ne_zero (Nat.ne_of_gt (UInt64.lt_iff_toNat_lt.1 hn))
  unfold runRepeatedWith
  rw [hk]
  rcases hcall : d'.invoke entry with ⟨e | log, left⟩
  · have hfirst : d'.iterate entry = (.error e, left) := (hiterate d'.guest).trans hcall
    exact Or.inl ⟨e, left, rfl, by rw [runWith, hfirst]⟩
  · have hleft := eq_of_invoke_eq_ok hcall
    have hagain : ∀ guest, { d' with guest := guest }.iterate entry =
        (.ok log, { d' with guest := left.guest }) := by
      intro guest
      rw [hiterate guest, hcall, ← hleft]
    have hrun := (iterates_replicate hagain k d'.guest).runWith_eq sink start 0
    rw [List.length_replicate, List.map_replicate, List.sum_replicate_nat, ← hleft, Nat.zero_add]
      at hrun
    exact Or.inr ⟨log, left, rfl, hrun⟩

/-- Of three calls on new instances each grows the memory from one page to two, and records that. -/
theorem runRepeatedWith_fresh_growing :
    ∃ r, (growingLinked .fresh).instantiate (.ofTransfer none ⟨none, 1⟩) =
        (.ok (), growingReady .fresh r 1 (pagesLog 1)) ∧
      (growingReady .fresh r 1 (pagesLog 1)).runRepeatedWith "main" 3
          (fun logs log => logs ++ [log]) [] =
        ⟨.ok (), [pagesLog 2, pagesLog 2, pagesLog 2], 3, growingReady .fresh r 2 .empty⟩ := by
  obtain ⟨r, hr⟩ : ∃ r, (Payload.ofTransfer none ⟨none, 1⟩).encode = .ok r :=
    ⟨_, Payload.encode_eq_ok rfl⟩
  have hmade := @instantiate_growingLinked .fresh _ _ hr
  have hcall := @invoke_growingReady .fresh 1 r (by decide) (pagesLog 1)
  obtain ⟨hrun, _⟩ := runRepeatedWith_fresh rfl hmade "main" (by decide : 0 < (3 : UInt64))
    (fun logs log => logs ++ [log]) []
  rw [hcall] at hrun
  refine ⟨r, hmade, ?_⟩
  rcases hrun with ⟨e, left, hfails, _⟩ | ⟨log, left, hcalls, hrun⟩
  · cases hfails
  · cases hcalls
    exact hrun

end Driver

end ContractHost
