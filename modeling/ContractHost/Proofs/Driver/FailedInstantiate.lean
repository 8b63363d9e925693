import Mathlib.Tactic.Common
import ContractHost.Bridge
import ContractHost.Proofs.Driver.History
import ContractHost.Proofs.Reason.RoundTrip
import ContractHost.Wasm.Instance

/-!
# What a failed instantiation leaves behind

An instantiation that fails leaves everything but the bound reason as it was.  The reason that was
written for it stays bound, though, if no instance can be made for it.  Calls do not look at the
bound reason, so they go on as before; but where every iteration of a run is given a new instance,
the next run asks for the instance that could not be made, and fails like the instantiation
(`Driver.instantiate_error`).
-/

namespace ContractHost.Driver

variable {Source Module Instance σ : Type} {d d' : Driver Source Module Instance}

/-! ## Drivers that differ in their reason -/

/-- The driver with another reason bound. -/
def rebind (d : Driver Source Module Instance) (reason : Option ByteArray) :
    Driver Source Module Instance := { d with reason := reason }

/-- The same run, but with another reason bound in the driver that is left. -/
def Run.rebind (run : Run Source Module Instance σ) (reason : Option ByteArray) :
    Run Source Module Instance σ := { run with driver := run.driver.rebind reason }

/-- Binding a reason changes nothing just if it is bound already. -/
lemma rebind_eq_self_iff (d : Driver Source Module Instance) (reason : Option ByteArray) :
    d.rebind reason = d ↔ d.reason = reason := by
  constructor
  · intro h
    rw [← h]
    rfl
  · rintro rfl
    rfl

/-- Calling an entry point of an instance does not depend on the bound reason. -/
lemma callIn_rebind (d : Driver Source Module Instance) (reason : Option ByteArray) (i : Instance)
    (entry : String) :
    (d.rebind reason).callIn i entry =
      ((d.callIn i entry).1, (d.callIn i entry).2.rebind reason) := by
  simp only [callIn, rebind]
  split <;> rfl

/-- Calls do not depend on the bound reason. -/
lemma invoke_rebind (d : Driver Source Module Instance) (reason : Option ByteArray)
    (entry : String) :
    (d.rebind reason).invoke entry =
      ((d.invoke entry).1, (d.invoke entry).2.rebind reason) := by
  have hstate : (d.rebind reason).state = d.state := rfl
  have hdeclared : (d.rebind reason).declared = d.declared := rfl
  have hguest : (d.rebind reason).guest = d.guest := rfl
  simp only [invoke, hstate, hdeclared, hguest]
  by_cases hready : d.state = .ready
  · rw [if_pos hready, if_pos hready]
    cases checkEntryPoint d.declared entry with
    | error e => rfl
    | ok _ =>
      cases d.guest with
      | none => rfl
      | some i => exact callIn_rebind d reason i entry
  · rw [if_neg hready, if_neg hready]
    rfl

/-- Where no new instance is asked for an iteration is a call. -/
lemma iterate_eq_invoke (h : d.config.instancePolicy = .reuse ∨ d.state ≠ .ready)
    (entry : String) : d.iterate entry = d.invoke entry := by
  rw [iterate, if_neg]
  rintro ⟨hfresh, hready⟩
  rcases h with hreuse | hstate
  · rw [hfresh] at hreuse
    exact InstancePolicy.noConfusion hreuse
  · exact hstate hready

/-- A call that succeeds was made in the ready state. -/
lemma state_of_invoke_eq_ok {entry : String} {log : Log} (h : d.invoke entry = (.ok log, d')) :
    d.state = .ready := by
  by_contra hstate
  rw [invoke_of_not_ready hstate] at h
  cases h

/-- Where no new instance is asked for runs do not depend on the bound reason. -/
lemma runWith_rebind (sink : σ → Log → σ) (entry : String) (n : Nat) (s : σ) (records : Nat)
    (h : d.config.instancePolicy = .reuse ∨ d.state ≠ .ready) (reason : Option ByteArray) :
    runWith sink entry n s records (d.rebind reason) =
      (runWith sink entry n s records d).rebind reason := by
  induction n generalizing d s records with
  | zero => rfl
  | succ n ih =>
    have hiterate := iterate_eq_invoke h entry
    have hiterate' : (d.rebind reason).iterate entry =
        ((d.invoke entry).1, (d.invoke entry).2.rebind reason) := by
      rw [iterate_eq_invoke (d := d.rebind reason) h, invoke_rebind]
    simp only [runWith, hiterate, hiterate']
    rcases hinvoke : d.invoke entry with ⟨result, left⟩
    cases result with
    | error e => rfl
    | ok log =>
      -- Only a ready driver gets here, so it is one that reuses its instance.
      have hstate := state_of_invoke_eq_ok hinvoke
      have hfollows : d.Follows left := by
        have := invoke_follows d entry
        rwa [hinvoke] at this
      have hreuse : left.config.instancePolicy = .reuse := by
        rw [hfollows.same]
        exact h.resolve_right (not_not_intro hstate)
      exact ih _ _ (Or.inl hreuse)

/-- Where no new instance is asked for the report of a run does not depend on the bound reason. -/
lemma runRepeated_rebind (h : d.config.instancePolicy = .reuse ∨ d.state ≠ .ready)
    (reason : Option ByteArray) (entry : String) (n : UInt64) :
    (d.rebind reason).runRepeated entry n =
      ((d.runRepeated entry n).1, (d.runRepeated entry n).2.rebind reason) := by
  have hrun := runWith_rebind (RunReport.add d.config.runLogLimits) entry n.toNat
    ⟨n, 0, .empty⟩ 0 h reason
  have hconfig : (d.rebind reason).config = d.config := rfl
  simp only [runRepeated, runRepeatedWith, hconfig, hrun, Run.rebind]
  split <;> rfl

/-! ## Failures -/

/-- An instance that cannot be made changes nothing. -/
lemma spawn_error {e : SandboxError} (h : d.spawn = (.error e, d')) : d' = d := by
  unfold spawn at h
  split at h
  · split at h <;> cases h
    rfl
  · cases h
    rfl

/-- A failed instantiation was refused, or its reason could not be written, or no instance could be
made for the reason that is then bound. -/
lemma instantiate_error_cases {p : Payload} {e : SandboxError}
    (h : d.instantiate p = (.error e, d')) :
    (¬(d.state = .linked ∨ d.state = .ready) ∨ ∃ e, p.encode = .error e) ∧ d' = d ∨
      (d.state = .linked ∨ d.state = .ready) ∧ ∃ r, p.encode = .ok r ∧ d' = d.rebind (some r) ∧
        d'.spawn = (.error e, d') := by
  unfold instantiate at h
  split at h
  next hstate =>
    split at h
    next e' he =>
      cases h
      exact Or.inl ⟨Or.inr ⟨e', he⟩, rfl⟩
    next r hr =>
      have hd : d' = d.rebind (some r) := spawn_error h
      refine Or.inr ⟨hstate, r, hr, hd, ?_⟩
      rw [hd]
      rw [hd] at h
      exact h
  next hstate =>
    cases h
    exact Or.inl ⟨Or.inl hstate, rfl⟩

/-- Where every iteration is given a new instance, a run fails at once if none can be made. -/
lemma runWith_of_spawn_error {e : SandboxError} (hpolicy : d.config.instancePolicy = .fresh)
    (hstate : d.state = .ready) (h : d.spawn = (.error e, d)) (sink : σ → Log → σ)
    (entry : String) {n : Nat} (hn : 0 < n) (s : σ) (records : Nat) :
    runWith sink entry n s records d = ⟨.error e, s, records, d⟩ := by
  obtain ⟨m, rfl⟩ : ∃ m, n = m + 1 := Nat.exists_eq_succ_of_ne_zero (Nat.ne_of_gt hn)
  have hiterate : d.iterate entry = (.error e, d) := by
    simp only [iterate, hpolicy, hstate, and_self, if_true, h]
  exact runWith_of_error hiterate sink m s records

/-- A failed instantiation changes nothing but the bound reason. -/
lemma eq_rebind_of_instantiate_error {p : Payload} {e : SandboxError}
    (h : d.instantiate p = (.error e, d')) : d' = d.rebind d'.reason := by
  rcases instantiate_error_cases h with ⟨_, rfl⟩ | ⟨_, r, _, rfl, _⟩
  · rfl
  · rfl

/-- A failed instantiation changes nothing at all just if it was refused, or its reason could not be
written or was bound already. -/
lemma eq_self_iff_of_instantiate_error {p : Payload} {e : SandboxError}
    (h : d.instantiate p = (.error e, d')) :
    d' = d ↔
      ((d.state = .linked ∨ d.state = .ready) → ∀ r, p.encode = .ok r → d.reason = some r) := by
  rcases instantiate_error_cases h with ⟨hrefused, rfl⟩ | ⟨hstate, r, hr, rfl, _⟩
  · refine iff_of_true rfl ?_
    intro hstate r hr
    rcases hrefused with hrefused | ⟨e', he⟩
    · exact absurd hstate hrefused
    · rw [he] at hr
      injection hr
  · rw [rebind_eq_self_iff]
    constructor
    · intro hreason _ r' hr'
      rw [hr] at hr'
      injection hr' with hr'
      rw [hreason, hr']
    · intro hreason
      exact hreason hstate r hr

/-- If no instance could be made for the reason, no run on new instances gets one either. -/
lemma runRepeated_of_instantiate_error {p : Payload} {e : SandboxError} {r : ByteArray}
    (h : d.instantiate p = (.error e, d')) (hpolicy : d.config.instancePolicy = .fresh)
    (hready : d.state = .ready) (hr : p.encode = .ok r) (entry : String) {n : UInt64}
    (hn : 0 < n) : d'.runRepeated entry n = (.error e, d') := by
  have hrebind := eq_rebind_of_instantiate_error h
  have hpolicy' : d'.config.instancePolicy = .fresh := by
    rw [hrebind]
    exact hpolicy
  have hready' : d'.state = .ready := by
    rw [hrebind]
    exact hready
  have hspawn : d'.spawn = (.error e, d') := by
    rcases instantiate_error_cases h with ⟨hrefused | ⟨e', he⟩, _⟩ | ⟨_, _, _, _, hspawn⟩
    · exact absurd (Or.inr hready) hrefused
    · rw [he] at hr
      injection hr
    · exact hspawn
  have hn' : 0 < n.toNat := UInt64.lt_iff_toNat_lt.1 hn
  simp only [runRepeated, runRepeatedWith,
    runWith_of_spawn_error hpolicy' hready' hspawn _ entry hn']

/-- A failed instantiation leaves everything but the bound reason as it was, and that too just if
it was refused, or its reason could not be written or was bound already.  Otherwise the reason is no
longer that of the instance.  Calls go on as if nothing had happened, and so do runs that ask for no
new instance; a run on new instances fails like the instantiation. -/
theorem instantiate_error {p : Payload} {e : SandboxError}
    (h : d.instantiate p = (.error e, d')) :
    d' = { d with reason := d'.reason } ∧
      (d' = d ↔
        ((d.state = .linked ∨ d.state = .ready) → ∀ r, p.encode = .ok r → d.reason = some r)) ∧
      (∀ i, d.guest = some i → d.reason = some (d.engine.context i).reason →
        (d'.reason = some (d'.engine.context i).reason ↔ d' = d)) ∧
      (∀ entry, d'.invoke entry =
        ((d.invoke entry).1, { (d.invoke entry).2 with reason := d'.reason })) ∧
      (d.config.instancePolicy = .reuse ∨ d.state ≠ .ready → ∀ entry n,
        d'.runRepeated entry n =
          ((d.runRepeated entry n).1, { (d.runRepeated entry n).2 with reason := d'.reason })) ∧
      (d.config.instancePolicy = .fresh → d.state = .ready → (∃ r, p.encode = .ok r) →
        ∀ entry n, 0 < n → d'.runRepeated entry n = (.error e, d')) := by
  have hrebind := eq_rebind_of_instantiate_error h
  refine ⟨hrebind, eq_self_iff_of_instantiate_error h, ?_, ?_, ?_, ?_⟩
  · intro i _ hreason
    rw [hrebind, rebind_eq_self_iff, hreason]
    exact eq_comm
  · intro entry
    rw [hrebind, invoke_rebind]
    rfl
  · intro hpolicy entry n
    rw [hrebind, runRepeated_rebind hpolicy]
    rfl
  · rintro hpolicy hready ⟨r, hr⟩ entry n hn
    exact runRepeated_of_instantiate_error h hpolicy hready hr entry hn

/-! ## An engine that makes an instance for one reason only -/

/-- An engine that makes an instance for one reason only.  The instance is no more than its
context, and every call succeeds. -/
def onlyFor (reason : ByteArray) : Engine Unit Unit Context where
  compile _ := .ok ()
  compileFile _ := .ok ()
  imports _ := []
  declaredExports _ := [⟨"main", .function entrySignature⟩]
  instantiate _ _ context := if context.reason = reason then .ok context else .error .fuelExhausted
  call context _ := (.ok (), context)
  context := id
  setContext _ context := context
  memory _ := .empty
  setMemory context _ := context

/-- The driver of such an engine, ready with the instance for the reason, and with a new instance
for every iteration of a run. -/
def readyFor (reason : ByteArray) : Driver Unit Unit Context where
  engine := onlyFor reason
  registry := .empty
  config := { Config.standard with instancePolicy := .fresh }
  state := .ready
  module := some ()
  declared := [⟨"main", .function entrySignature⟩]
  linked := []
  reason := some reason
  guest := some (.new reason .standard)

/-- Loading, linking and instantiating lead there. -/
lemma instantiate_eq_readyFor {p : Payload} {reason : ByteArray} (h : p.encode = .ok reason) :
    ((Driver.new (onlyFor reason) .empty
      { Config.standard with instancePolicy := .fresh }).load ()).2.link.2.instantiate p =
        (.ok (), readyFor reason) := by
  simp [Driver.new, load, loadWith, accept, link, onlyFor, Registry.link, instantiate, h, spawn,
    transition, Context.new, readyFor, Config.standard, pure, Except.pure]

/-- For another reason no instance is made, but it is bound. -/
lemma readyFor_instantiate {p : Payload} {reason other : ByteArray} (h : p.encode = .ok other)
    (hne : other ≠ reason) : (readyFor reason).instantiate p =
      (.error .fuelExhausted, (readyFor reason).rebind (some other)) := by
  simp [instantiate, h, spawn, readyFor, onlyFor, Context.new, hne, rebind]

/-- With the reason of the instance a run goes on. -/
lemma readyFor_runRepeated (reason : ByteArray) :
    ((readyFor reason).runRepeated "main" 1).1 = .ok ⟨1, 0, .empty⟩ := by
  have hspawn : (readyFor reason).spawn = (.ok (), readyFor reason) := by
    simp [spawn, transition, readyFor, onlyFor, Context.new, Config.standard]
  have hinvoke : (readyFor reason).invoke "main" = (.ok .empty, readyFor reason) := rfl
  have hiterate : (readyFor reason).iterate "main" = (.ok .empty, readyFor reason) := by
    simp only [iterate, hspawn, hinvoke, ite_self]
  have hone : (1 : UInt64).toNat = 1 := rfl
  simp only [runRepeated, runRepeatedWith, hone, runWith, hiterate]
  rfl

/-- After a failed instantiation a ready driver still has its instance, but not its reason, and
does not run any more. -/
theorem instantiate_error_readyFor :
    ∃ r d d', (((Driver.new (onlyFor r) .empty
        { Config.standard with instancePolicy := .fresh }).load ()).2.link.2.instantiate
          (.ofTransfer none ⟨none, 1⟩)) = (.ok (), d) ∧
      d.instantiate (.ofTransfer none ⟨none, 2⟩) = (.error .fuelExhausted, d') ∧
      d.guest = some (.new r .standard) ∧ d'.guest = d.guest ∧
      d.reason = some r ∧ d'.reason ≠ some r ∧
      (d.runRepeated "main" 1).1 = .ok ⟨1, 0, .empty⟩ ∧
      d'.runRepeated "main" 1 = (.error .fuelExhausted, d') := by
  obtain ⟨r, hr⟩ : ∃ r, (Payload.ofTransfer none ⟨none, 1⟩).encode = .ok r :=
    ⟨_, Payload.encode_eq_ok rfl⟩
  obtain ⟨r', hr'⟩ : ∃ r', (Payload.ofTransfer none ⟨none, 2⟩).encode = .ok r' :=
    ⟨_, Payload.encode_eq_ok rfl⟩
  have hne : r' ≠ r := by
    rintro rfl
    have hsame := Payload.canonical_eq_of_encode_eq rfl rfl (hr.trans hr'.symm)
    revert hsame
    decide
  have hfail := readyFor_instantiate hr' hne
  obtain ⟨_, _, _, _, _, hfresh⟩ := instantiate_error hfail
  have hreason : ((readyFor r).rebind (some r')).reason ≠ some r := by simpa [rebind] using hne
  exact ⟨r, _, _, instantiate_eq_readyFor hr, hfail, rfl, rfl, rfl, hreason,
    readyFor_runRepeated r, hfresh rfl rfl ⟨r', hr'⟩ "main" 1 (by decide)⟩

/-! ## A module whose memory is too large -/

/-- A module with a memory of eight pages. -/
def eightPages : Wasm.Description :=
  { Wasm.Description.empty with
    memories := [⟨8, none⟩]
    exports := [⟨Wasm.memoryExportName, .memory, 0⟩] }

/-- The settings for guests of one page. -/
def onePage : Config := { Config.standard with maxMemoryPages := 1 }

/-- The driver of the module, linked, for guests of one page. -/
def linkedOnePage : Driver Wasm.Source Wasm.Module Wasm.Instance :=
  ((Driver.new (Wasm.engine (.ofConfig onePage)) Bridge.registry onePage).load
    (.description eightPages)).2.link.2

/-- No instance can be made of the module, whatever the context. -/
lemma instantiate_eightPages (context : Context) :
    ∃ e, Wasm.Instance.new (.ofConfig onePage) ⟨eightPages, #[]⟩ [] context = .error e := by
  have himports : Wasm.Instance.resolveImports ⟨eightPages, #[]⟩ [] = .ok [] := rfl
  have hlarge : ¬8 * pageSize ≤ onePage.maxMemoryBytes := by
    simp [onePage, Config.maxMemoryBytes, pageSize]
  obtain ⟨e, he⟩ : ∃ e, Wasm.Instance.newMemory ⟨eightPages, #[]⟩ (.ofConfig onePage) =
      .error e := Wasm.Instance.newMemory_of_not_le hlarge
  exact ⟨e, by simp only [Wasm.Instance.new, Wasm.Instance.prepare, himports, he, bind,
    Except.bind]⟩

/-- Linked, with no instance yet, a driver keeps the reason of an instantiation that fails. -/
theorem instantiate_linkedOnePage :
    ∃ e r d', linkedOnePage.instantiate (.ofTransfer none ⟨none, 1⟩) = (.error e, d') ∧
      linkedOnePage.state = .linked ∧ linkedOnePage.reason = none ∧
      d'.guest = none ∧ d'.reason = some r := by
  obtain ⟨r, hr⟩ : ∃ r, (Payload.ofTransfer none ⟨none, 1⟩).encode = .ok r :=
    ⟨_, Payload.encode_eq_ok rfl⟩
  obtain ⟨e, he⟩ := instantiate_eightPages (.new r onePage.logLimits)
  have hstate : linkedOnePage.state = .linked := rfl
  have hmodule : linkedOnePage.module = some ⟨eightPages, #[]⟩ := rfl
  have hmake : linkedOnePage.engine.instantiate ⟨eightPages, #[]⟩ linkedOnePage.linked
      (.new r linkedOnePage.config.logLimits) = .error e := he
  refine ⟨e, r, linkedOnePage.rebind (some r), ?_, hstate, rfl, rfl, rfl⟩
  simp only [instantiate, hstate, true_or, if_true, hr, spawn, hmodule, hmake, rebind]

end ContractHost.Driver
