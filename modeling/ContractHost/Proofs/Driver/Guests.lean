import ContractHost.Proofs.Driver.NewInstance
import ContractHost.Proofs.Driver.Refusal

/-!
# The instance of a driver

A driver makes an instance, moves the open log out of it, calls it and writes to its memory.  What
these keep of an instance is therefore known of every instance that a driver has, whatever was done
with the driver (`Driver.Reachable.holds`).

What a single call comes to is one of four things (`Driver.Coherent.called`).
-/

namespace ContractHost.Driver

variable {Source Module Instance σ : Type} {d d' : Driver Source Module Instance}
  {engine : Engine Source Module Instance} {registry : Registry} {config : Config}
  {P : DriverState → Module → List Binding → Instance → Prop}

/-! ## Calls -/

/-- What a call of an entry point comes to, if the driver has the instance that its state calls
for. -/
inductive Called (d : Driver Source Module Instance) (entry : String) :
    Except SandboxError Log → Driver Source Module Instance → Prop
  | refused (hstate : d.state ≠ .ready) : Called d entry (.error (d.refusal .invoke)) d
  | rejected {e : SandboxError} (hready : d.state = .ready)
    (hentry : checkEntryPoint d.declared entry = .error e) :
    Called d entry (.error e) { d with state := .faulted }
  | returned {i i' : Instance} (hready : d.state = .ready)
    (hentry : checkEntryPoint d.declared entry = .ok ()) (hguest : d.guest = some i)
    (hcall : d.engine.call (d.engine.takeLog i).2 entry = (.ok (), i')) :
    Called d entry (.ok (d.engine.takeLog i').1)
      { d with guest := some (d.engine.takeLog i').2, state := .ready }
  | failed {i i' : Instance} {e : SandboxError} (hready : d.state = .ready)
    (hentry : checkEntryPoint d.declared entry = .ok ()) (hguest : d.guest = some i)
    (hcall : d.engine.call (d.engine.takeLog i).2 entry = (.error e, i')) :
    Called d entry (.error e) { d with guest := some i', state := .faulted }

/-- A call is refused for the state, or the entry point is rejected, or the instance is called in an
empty log and returns or fails. -/
lemma Coherent.called {entry : String} {result : Except SandboxError Log} (h : d.Coherent)
    (hcall : d.invoke entry = (result, d')) : d.Called entry result d' := by
  by_cases hready : d.state = .ready
  · rcases hentry : checkEntryPoint d.declared entry with e | _
    · simp only [Driver.invoke, if_pos hready, hentry] at hcall
      cases hcall
      exact .rejected hready hentry
    · obtain ⟨i, hguest, hinvoke⟩ := h.supplied.invoke hready entry hentry
      rw [hinvoke] at hcall
      unfold callIn at hcall
      dsimp only at hcall
      split at hcall
      next hreturned =>
        cases hcall
        exact .returned hready hentry hguest hreturned
      next hfailed =>
        cases hcall
        exact .failed hready hentry hguest hfailed
  · rw [invoke_of_not_ready hready] at hcall
    cases hcall
    exact .refused hready

/-! ## Properties of instances -/

/-- A property of instances that is kept by all that a driver does with them.  It may depend on the
state of the driver, on its module and on the functions that were linked. -/
structure Kept (engine : Engine Source Module Instance) (registry : Registry) (config : Config)
    (P : DriverState → Module → List Binding → Instance → Prop) : Prop where
  /-- A new instance has it. -/
  made : ∀ {m bs r i}, registry.link (engine.imports m) = .ok bs →
    engine.instantiate m bs (.new r config.logLimits) = .ok i → P .ready m bs i
  /-- It does not get lost when an entry point is rejected. -/
  rejected : ∀ {m bs i}, P .ready m bs i → P .faulted m bs i
  /-- It does not get lost in a call that returns. -/
  returned : ∀ {m bs i i' entry}, P .ready m bs i →
    engine.call (engine.takeLog i).2 entry = (.ok (), i') → P .ready m bs (engine.takeLog i').2
  /-- It does not get lost in a call that fails. -/
  failed : ∀ {m bs i i' entry e}, P .ready m bs i →
    engine.call (engine.takeLog i).2 entry = (.error e, i') → P .faulted m bs i'
  /-- It does not get lost when the host writes to the memory. -/
  written : ∀ {state m bs i offset data memory}, P state m bs i →
    (engine.memory i).write offset data = .ok memory → P state m bs (engine.setMemory i memory)

/-- The instance of the driver, if it has one, has the property. -/
def Holds (P : DriverState → Module → List Binding → Instance → Prop)
    (d : Driver Source Module Instance) : Prop :=
  ∀ m i, d.module = some m → d.guest = some i → P d.state m d.linked i

namespace Holds

/-- Without an instance there is nothing to be kept. -/
lemma of_guest_eq_none (hguest : d.guest = none) : d.Holds P := by
  intro m i _ hi
  rw [hguest] at hi
  cases hi

/-- Loading meets no instance. -/
lemma loadWith (hd : d.Holds P) (h : d.Coherent) (compiled : Unit → Except SandboxError Module) :
    (d.loadWith compiled).2.Holds P := by
  by_cases hstate : d.state = .unloaded
  · refine of_guest_eq_none ?_
    rw [guest_loadWith]
    exact h.guest_eq_none (by simp [hstate])
  · rw [loadWith_of_not_unloaded hstate]
    exact hd

/-- Linking meets no instance. -/
lemma link (hd : d.Holds P) (h : d.Coherent) : d.link.2.Holds P := by
  by_cases hstate : d.state = .loaded
  · refine of_guest_eq_none ?_
    rw [guest_link]
    exact h.guest_eq_none (by simp [hstate])
  · rw [link_of_not_loaded hstate]
    exact hd

/-- An instance that is made has the property. -/
lemma spawn (hd : d.Holds P) (hkept : Kept d.engine d.registry d.config P) (h : d.Coherent)
    (hlinked : d.IsLinked) : d.spawn.2.Holds P := by
  rcases hspawn : d.spawn with ⟨e | _, d'⟩
  · rw [spawn_error hspawn]
    exact hd
  · obtain ⟨m, r, i, hm, _, hmade, rfl⟩ := spawn_eq_ok_iff.1 hspawn
    intro m' i' hm' hi'
    cases hm.symm.trans hm'
    cases hi'
    exact hkept.made (h.linked_eq hlinked m hm) hmade

/-- An instance that is made for another reason has the property. -/
lemma instantiate (hd : d.Holds P) (hkept : Kept d.engine d.registry d.config P) (h : d.Coherent)
    (p : Payload) : (d.instantiate p).2.Holds P := by
  by_cases hstate : d.state = .linked ∨ d.state = .ready
  · have hlinked := Coherent.isLinked_of_state hstate
    rw [Driver.instantiate, if_pos hstate]
    rcases p.encode with e | r
    · exact hd
    · have hrebound : (d.rebind (some r)).Holds P := hd
      exact hrebound.spawn hkept (h.rebind hlinked r) hlinked
  · rw [instantiate_of_not_linked hstate]
    exact hd

/-- An instance that is called keeps the property. -/
lemma invoke (hd : d.Holds P) (hkept : Kept d.engine d.registry d.config P) (h : d.Coherent)
    (entry : String) : (d.invoke entry).2.Holds P := by
  rcases hinvoke : d.invoke entry with ⟨result, left⟩
  cases h.called hinvoke with
  | refused _ => exact hd
  | rejected hready _ =>
    intro m i hm hi
    have hP := hd m i hm hi
    rw [hready] at hP
    exact hkept.rejected hP
  | @returned i i' hready _ hguest hcall =>
    intro m i'' hm hi''
    have hP := hd m i hm hguest
    rw [hready] at hP
    cases hi''
    exact hkept.returned hP hcall
  | @failed i i' e hready _ hguest hcall =>
    intro m i'' hm hi''
    have hP := hd m i hm hguest
    rw [hready] at hP
    cases hi''
    exact hkept.failed hP hcall

/-- An instance that is written to keeps the property. -/
lemma writeMemory (hd : d.Holds P) (hkept : Kept d.engine d.registry d.config P) (offset : Int32)
    (data : ByteArray) : (d.writeMemory offset data).2.Holds P := by
  unfold Driver.writeMemory
  split
  · exact hd
  next i hguest =>
    split
    · exact hd
    next memory hwrite =>
      intro m i' hm hi'
      cases hi'
      exact hkept.written (hd m i hm hguest) hwrite

end Holds

namespace Reachable

/-- What is kept is kept for the parts of a driver that can come about. -/
lemma kept (h : Reachable engine registry config d) (hkept : Kept engine registry config P) :
    Kept d.engine d.registry d.config P := by
  obtain ⟨hengine, hregistry, hconfig, _⟩ := h.coherent
  rw [hengine, hregistry, hconfig]
  exact hkept

/-- A new instance in the middle of a run has the property. -/
lemma holds_spawn (h : Reachable engine registry config d) (hkept : Kept engine registry config P)
    (hready : d.state = .ready) (hd : d.Holds P) : d.spawn.2.Holds P :=
  hd.spawn (h.kept hkept) h.coherent.2.2.2 (Coherent.isLinked_of_state (Or.inr hready))

/-- After a run the instance has the property. -/
lemma holds_runWith (h : Reachable engine registry config d) (hkept : Kept engine registry config P)
    (hd : d.Holds P) (sink : σ → Log → σ) (entry : String) (n : Nat) (s : σ) (records : Nat) :
    (runWith sink entry n s records d).driver.Holds P := by
  -- Drivers in the middle of a run can come about as well, which is what a step asks for.
  have hspawn : ∀ d : Driver Source Module Instance, d.state = .ready →
      Reachable engine registry config d ∧ d.Holds P →
        Reachable engine registry config d.spawn.2 ∧ d.spawn.2.Holds P := by
    intro d hready ⟨h, hd⟩
    exact ⟨h.spawn hready, h.holds_spawn hkept hready hd⟩
  have hinvoke : ∀ d : Driver Source Module Instance,
      Reachable engine registry config d ∧ d.Holds P →
        Reachable engine registry config (d.invoke entry).2 ∧ (d.invoke entry).2.Holds P := by
    intro d ⟨h, hd⟩
    exact ⟨h.after (.invoke entry), hd.invoke (h.kept hkept) h.coherent.2.2.2 entry⟩
  have hboth := runWith_keeps (fun _ h => iterate_keeps hspawn hinvoke h) sink n s records ⟨h, hd⟩
  exact hboth.2

/-- Whatever a driver is used for, its instance keeps the property. -/
lemma holds_after (h : Reachable engine registry config d) (hkept : Kept engine registry config P)
    (hd : d.Holds P) (use : Use Source) : (d.after use).Holds P := by
  have hcoherent := h.coherent.2.2.2
  cases use with
  | load source => exact hd.loadWith hcoherent _
  | loadFile file => exact hd.loadWith hcoherent _
  | link => exact hd.link hcoherent
  | instantiate payload => exact hd.instantiate (h.kept hkept) hcoherent payload
  | invoke entry => exact hd.invoke (h.kept hkept) hcoherent entry
  | runRepeated entry iterations =>
    rw [Driver.after, driver_runRepeated]
    exact h.holds_runWith hkept hd _ entry iterations.toNat _ 0
  | writeMemory offset data => exact hd.writeMemory (h.kept hkept) offset data

/-- Whatever was done with a driver, its instance has every property that is kept. -/
theorem holds (h : Reachable engine registry config d) (hkept : Kept engine registry config P) :
    d.Holds P := by
  induction h with
  | new => exact .of_guest_eq_none rfl
  | after h use ih => exact h.holds_after hkept ih use
  | runRepeatedWith h entry iterations sink start ih =>
    exact h.holds_runWith hkept ih sink entry iterations.toNat start 0
  | spawn h hready ih => exact h.holds_spawn hkept hready ih

end Reachable

end ContractHost.Driver
