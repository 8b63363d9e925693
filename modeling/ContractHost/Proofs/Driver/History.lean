import Mathlib.Tactic.Common
import ContractHost.Driver.Basic

/-!
# What a driver keeps

A driver is used by one operation after the other.  An operation that the state does not allow is
refused and changes nothing.  Once a driver is linked nothing changes but its state, its reason and
its instance, whatever is asked of it and whatever comes of that (`Driver.after_follows`,
`Driver.afterAll_follows`).
-/

namespace ContractHost

/-- What can be asked of a driver. -/
inductive Use (Source : Type) where
  | load (source : Source)
  | loadFile (file : Option Source)
  | link
  | instantiate (payload : Payload)
  | invoke (entry : String)
  | runRepeated (entry : String) (iterations : UInt64)
  | writeMemory (offset : Int32) (data : ByteArray)

namespace Driver

variable {Source Module Instance σ : Type} {d d' d'' : Driver Source Module Instance}

/-- A transition sets the state. -/
@[simp] lemma state_transition (d : Driver Source Module Instance) (state : DriverState) :
    (d.transition state).state = state := rfl

/-- A transition keeps the module. -/
@[simp] lemma module_transition (d : Driver Source Module Instance) (state : DriverState) :
    (d.transition state).module = d.module := rfl

/-- The driver that is left after it was used. -/
def after (d : Driver Source Module Instance) : Use Source → Driver Source Module Instance
  | .load source => (d.load source).2
  | .loadFile file => (d.loadFile file).2
  | .link => d.link.2
  | .instantiate payload => (d.instantiate payload).2
  | .invoke entry => (d.invoke entry).2
  | .runRepeated entry iterations => (d.runRepeated entry iterations).2
  | .writeMemory offset data => (d.writeMemory offset data).2

/-- The driver that is left after it was used several times. -/
def afterAll (d : Driver Source Module Instance) (uses : List (Use Source)) :
    Driver Source Module Instance := uses.foldl after d

/-- The driver has linked its module. -/
def IsLinked (d : Driver Source Module Instance) : Prop :=
  d.state ≠ .unloaded ∧ d.state ≠ .loaded

/-- Nothing but the state, the reason and the instance is different, and what was linked is
linked. -/
structure Follows (d d' : Driver Source Module Instance) : Prop where
  /-- All other parts are the same. -/
  same : d' = { d with state := d'.state, reason := d'.reason, guest := d'.guest }
  /-- The module stays linked. -/
  linked : d.IsLinked → d'.IsLinked

/-- A driver follows itself. -/
lemma Follows.refl (d : Driver Source Module Instance) : d.Follows d := ⟨rfl, id⟩

/-- After an operation that took effect a driver is ready or faulted. -/
lemma follows_of_state (d : Driver Source Module Instance) {state : DriverState}
    (h : state = .ready ∨ state = .faulted) (reason : Option ByteArray) (guest : Option Instance) :
    d.Follows { d with state := state, reason := reason, guest := guest } := by
  refine ⟨rfl, fun _ => ?_⟩
  rcases h with rfl | rfl <;> exact ⟨DriverState.noConfusion, DriverState.noConfusion⟩

/-- What follows can be followed. -/
lemma Follows.trans (h : d.Follows d') (h' : d'.Follows d'') : d.Follows d'' := by
  refine ⟨?_, h'.linked ∘ h.linked⟩
  have hsame := h'.same
  rw [h.same] at hsame
  exact hsame

/-! ## Refused operations -/

/-- In a state that does not allow it loading is refused. -/
lemma loadWith_of_not_unloaded (hstate : d.state ≠ .unloaded)
    (compiled : Unit → Except SandboxError Module) :
    d.loadWith compiled = (.error (d.refusal .load), d) := by
  rw [loadWith, if_neg hstate]

/-- In a state that does not allow it linking is refused. -/
lemma link_of_not_loaded (hstate : d.state ≠ .loaded) :
    d.link = (.error (d.refusal .link), d) := by
  rw [link, if_neg hstate]

/-- In a state that does not allow it instantiating is refused. -/
lemma instantiate_of_not_linked (hstate : ¬(d.state = .linked ∨ d.state = .ready))
    (payload : Payload) :
    d.instantiate payload = (.error (d.refusal .instantiate), d) := by
  rw [instantiate, if_neg hstate]

/-- In a state that does not allow it a call is refused. -/
lemma invoke_of_not_ready (hstate : d.state ≠ .ready) (entry : String) :
    d.invoke entry = (.error (d.refusal .invoke), d) := by
  rw [invoke, if_neg hstate]

/-! ## Operations -/

/-- Making an instance sets the state and the instance. -/
lemma spawn_follows (d : Driver Source Module Instance) : d.Follows d.spawn.2 := by
  unfold spawn
  split
  · split
    · exact .refl d
    · exact follows_of_state d (Or.inl rfl) _ _
  · exact .refl d

/-- Instantiating sets the state, the reason and the instance. -/
lemma instantiate_follows (d : Driver Source Module Instance) (p : Payload) :
    d.Follows (d.instantiate p).2 := by
  unfold instantiate
  split
  · split
    · exact .refl d
    next r _ =>
      have hbind : d.Follows { d with reason := some r } := ⟨rfl, id⟩
      exact hbind.trans (spawn_follows _)
  · exact .refl d

/-- A call sets the state and the instance. -/
lemma invoke_follows (d : Driver Source Module Instance) (entry : String) :
    d.Follows (d.invoke entry).2 := by
  unfold invoke
  split
  · split
    · exact follows_of_state d (Or.inr rfl) _ _
    · split
      · exact .refl d
      · unfold callIn
        dsimp only
        split
        · exact follows_of_state d (Or.inl rfl) _ _
        · exact follows_of_state d (Or.inr rfl) _ _
  · exact .refl d

/-- What making an instance and calling keep is kept by an iteration of a run. -/
lemma iterate_keeps {P : Driver Source Module Instance → Prop} {entry : String}
    (hspawn : ∀ d, d.state = .ready → P d → P d.spawn.2)
    (hinvoke : ∀ d, P d → P (d.invoke entry).2) (h : P d) : P (d.iterate entry).2 := by
  unfold iterate
  split
  next hfresh =>
    have hspawned := hspawn d hfresh.2 h
    split
    next hd =>
      rw [hd] at hspawned
      exact hspawned
    next hd =>
      rw [hd] at hspawned
      exact hinvoke _ hspawned
  · exact hinvoke d h

/-- If the first iteration fails, so does the run. -/
lemma runWith_of_error {entry : String} {e : SandboxError}
    (h : d.iterate entry = (.error e, d')) (sink : σ → Log → σ) (n : Nat) (s : σ) (records : Nat) :
    runWith sink entry (n + 1) s records d = ⟨.error e, s, records, d'⟩ := by
  rw [runWith, h]

/-- If the first iteration succeeds, its log is handed over and the run goes on. -/
lemma runWith_of_ok {entry : String} {log : Log}
    (h : d.iterate entry = (.ok log, d')) (sink : σ → Log → σ) (n : Nat) (s : σ) (records : Nat) :
    runWith sink entry (n + 1) s records d =
      runWith sink entry n (sink s log) (records + log.length) d' := by
  rw [runWith, h]

/-- What an iteration keeps is kept by a run, however many iterations it has. -/
lemma runWith_keeps {P : Driver Source Module Instance → Prop} {entry : String}
    (hiterate : ∀ d, P d → P (d.iterate entry).2) (sink : σ → Log → σ) (n : Nat) (s : σ)
    (records : Nat) (h : P d) : P (runWith sink entry n s records d).driver := by
  induction n generalizing s records d with
  | zero => exact h
  | succ n ih =>
    have hnext := hiterate d h
    rcases hcall : d.iterate entry with ⟨e | log, left⟩
    · rw [runWith_of_error hcall]
      rw [hcall] at hnext
      exact hnext
    · rw [runWith_of_ok hcall]
      rw [hcall] at hnext
      exact ih _ _ hnext

/-- An iteration sets the state and the instance. -/
lemma iterate_follows (d : Driver Source Module Instance) (entry : String) :
    d.Follows (d.iterate entry).2 := by
  have hspawn : ∀ d', d'.state = .ready → d.Follows d' → d.Follows d'.spawn.2 :=
    fun d' _ h => h.trans (spawn_follows d')
  have hinvoke : ∀ d', d.Follows d' → d.Follows (d'.invoke entry).2 :=
    fun d' h => h.trans (invoke_follows d' entry)
  exact iterate_keeps hspawn hinvoke (.refl d)

/-- A run sets the state and the instance. -/
lemma runWith_follows (sink : σ → Log → σ) (entry : String) (n : Nat) (s : σ) (records : Nat)
    (d : Driver Source Module Instance) :
    d.Follows (runWith sink entry n s records d).driver :=
  runWith_keeps (fun d' h => h.trans (iterate_follows d' entry)) sink n s records (.refl d)

/-- A run that is reported leaves the driver that the run leaves. -/
lemma driver_runRepeated (d : Driver Source Module Instance) (entry : String) (n : UInt64) :
    (d.runRepeated entry n).2 =
      (runWith (RunReport.add d.config.runLogLimits) entry n.toNat ⟨n, 0, .empty⟩ 0 d).driver := by
  unfold runRepeated
  dsimp only
  split <;> rfl

/-- A run that is reported sets the state and the instance. -/
lemma runRepeated_follows (d : Driver Source Module Instance) (entry : String) (n : UInt64) :
    d.Follows (d.runRepeated entry n).2 := by
  rw [driver_runRepeated]
  exact runWith_follows _ entry n.toNat _ 0 d

/-- Writing to the memory sets the instance. -/
lemma writeMemory_follows (d : Driver Source Module Instance) (offset : Int32)
    (data : ByteArray) : d.Follows (d.writeMemory offset data).2 := by
  unfold writeMemory
  split
  · exact .refl d
  · split
    · exact .refl d
    · exact ⟨rfl, id⟩

/-- Loading keeps the instance. -/
lemma guest_loadWith (d : Driver Source Module Instance)
    (compiled : Unit → Except SandboxError Module) : (d.loadWith compiled).2.guest = d.guest := by
  unfold loadWith
  split
  · split <;> rfl
  · rfl

/-- Linking keeps the instance. -/
lemma guest_link (d : Driver Source Module Instance) : d.link.2.guest = d.guest := by
  unfold link
  split
  · split
    · rfl
    · split <;> rfl
  · rfl

/-- A linked driver does not load. -/
lemma loadWith_of_isLinked (h : d.IsLinked) (compiled : Unit → Except SandboxError Module) :
    (d.loadWith compiled).2 = d := by
  rw [loadWith_of_not_unloaded h.1]

/-- A linked driver does not link again. -/
lemma link_of_isLinked (h : d.IsLinked) : d.link.2 = d := by
  rw [link_of_not_loaded h.2]

/-- Whatever is asked of a linked driver, nothing but its state, its reason and its instance
changes. -/
lemma after_follows (h : d.IsLinked) (use : Use Source) : d.Follows (d.after use) := by
  cases use with
  | load source =>
    rw [after, load, loadWith_of_isLinked h]
    exact .refl d
  | loadFile file =>
    rw [after, loadFile, loadWith_of_isLinked h]
    exact .refl d
  | link =>
    rw [after, link_of_isLinked h]
    exact .refl d
  | instantiate payload => exact instantiate_follows d payload
  | invoke entry => exact invoke_follows d entry
  | runRepeated entry iterations => exact runRepeated_follows d entry iterations
  | writeMemory offset data => exact writeMemory_follows d offset data

/-- Whatever is asked of a linked driver in turn, nothing but its state, its reason and its instance
changes. -/
theorem afterAll_follows (h : d.IsLinked) (uses : List (Use Source)) :
    d.Follows (d.afterAll uses) := by
  induction uses generalizing d with
  | nil => exact .refl d
  | cons use uses ih =>
    have hstep := after_follows h use
    exact hstep.trans (ih (hstep.linked h))

end Driver

end ContractHost
