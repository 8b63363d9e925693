import ContractHost.Proofs.Driver.Coherence
import ContractHost.Proofs.Driver.Report

/-!
# Refused uses

Loading, linking, instantiating and calling are each allowed in some states only (`Use.guard?`).
In any other state they are refused before anything is looked at: the answer names the state, or
says that the driver faulted, and nothing changes.  A faulted driver refuses them all, and so it
refuses them for good (`Driver.answer_of_not_allowed`).

A repeated run asks for nothing by itself.  It is refused with its first call, and so a run without
iterations is never refused (`Driver.runRepeated_of_not_ready`).
-/

namespace ContractHost

/-- The operation that the use is, and the states that allow it.  Repeated runs and writing to the
memory have no such states of their own. -/
def Use.guard? {Source : Type} : Use Source → Option (Operation × List DriverState)
  | .load _ | .loadFile _ => some (.load, [.unloaded])
  | .link => some (.link, [.loaded])
  | .instantiate _ => some (.instantiate, [.linked, .ready])
  | .invoke _ => some (.invoke, [.ready])
  | .runRepeated _ _ | .writeMemory _ _ => none

namespace Driver

variable {Source Module Instance σ : Type} {d : Driver Source Module Instance}
  {use : Use Source} {operation : Operation} {states : List DriverState}

/-- Whether a use succeeds, and its error if it does not. -/
def answer (d : Driver Source Module Instance) : Use Source → Except SandboxError Unit
  | .load source => (d.load source).1
  | .loadFile file => (d.loadFile file).1
  | .link => d.link.1
  | .instantiate payload => (d.instantiate payload).1
  | .invoke entry => (d.invoke entry).1.map fun _ => ()
  | .runRepeated entry iterations => (d.runRepeated entry iterations).1.map fun _ => ()
  | .writeMemory offset data => (d.writeMemory offset data).1.map fun _ => ()

/-- The answers to several uses in turn, each of the driver that the one before left. -/
def answers (d : Driver Source Module Instance) :
    List (Use Source) → List (Except SandboxError Unit)
  | [] => []
  | use :: uses => d.answer use :: (d.after use).answers uses

/-! ## One use -/

/-- A use is refused in a state that does not allow it, and changes nothing. -/
lemma refused_of_not_mem (hguard : use.guard? = some (operation, states))
    (hstate : d.state ∉ states) :
    d.answer use = .error (d.refusal operation) ∧ d.after use = d := by
  cases use with
  | load source =>
    obtain ⟨rfl, rfl⟩ := Prod.mk.inj (Option.some.inj hguard)
    have hrefused := loadWith_of_not_unloaded (List.mem_singleton.not.1 hstate)
      fun _ => d.engine.compile source
    exact ⟨congrArg Prod.fst hrefused, congrArg Prod.snd hrefused⟩
  | loadFile file =>
    obtain ⟨rfl, rfl⟩ := Prod.mk.inj (Option.some.inj hguard)
    have hrefused := loadWith_of_not_unloaded (List.mem_singleton.not.1 hstate)
      fun _ => d.engine.compileFile file
    exact ⟨congrArg Prod.fst hrefused, congrArg Prod.snd hrefused⟩
  | link =>
    obtain ⟨rfl, rfl⟩ := Prod.mk.inj (Option.some.inj hguard)
    have hrefused := link_of_not_loaded (List.mem_singleton.not.1 hstate)
    exact ⟨congrArg Prod.fst hrefused, congrArg Prod.snd hrefused⟩
  | instantiate payload =>
    obtain ⟨rfl, rfl⟩ := Prod.mk.inj (Option.some.inj hguard)
    have hrefused := instantiate_of_not_linked (List.mem_pair.not.1 hstate) payload
    exact ⟨congrArg Prod.fst hrefused, congrArg Prod.snd hrefused⟩
  | invoke entry =>
    obtain ⟨rfl, rfl⟩ := Prod.mk.inj (Option.some.inj hguard)
    have hrefused := invoke_of_not_ready (List.mem_singleton.not.1 hstate) entry
    refine ⟨?_, congrArg Prod.snd hrefused⟩
    rw [answer, hrefused]
    rfl
  | runRepeated entry iterations => cases hguard
  | writeMemory offset data => cases hguard

/-- A faulted driver allows nothing. -/
lemma faulted_not_mem_guard (hguard : use.guard? = some (operation, states)) :
    DriverState.faulted ∉ states := by
  cases use <;> cases hguard <;> decide

/-! ## Faulted drivers -/

/-- A faulted driver refuses all that it is asked in turn, and nothing changes. -/
lemma answers_of_faulted (hstate : d.state = .faulted) (uses : List (Use Source))
    (hguard : ∀ use ∈ uses, use.guard?.isSome) :
    d.answers uses = List.replicate uses.length (.error .instanceFaulted) ∧
      d.afterAll uses = d := by
  induction uses with
  | nil => exact ⟨rfl, rfl⟩
  | cons use uses ih =>
    obtain ⟨hfirst, hrest⟩ := List.forall_mem_cons.1 hguard
    obtain ⟨⟨operation, states⟩, hguard⟩ := Option.isSome_iff_exists.1 hfirst
    have hnot : d.state ∉ states := by
      rw [hstate]
      exact faulted_not_mem_guard hguard
    obtain ⟨hanswer, hafter⟩ := refused_of_not_mem hguard hnot
    obtain ⟨hanswers, hall⟩ := ih hrest
    have hrefusal : d.refusal operation = .instanceFaulted := if_pos hstate
    refine ⟨?_, ?_⟩
    · rw [answers, hafter, hanswers, hanswer, hrefusal, List.length_cons, List.replicate_succ]
    · rw [afterAll, List.foldl_cons, hafter]
      exact hall

/-- In a state that does not allow it a use is refused: as of a faulted driver, or with the state.
Nothing changes.  A faulted driver refuses whatever is asked of it in turn, and stays the same, with
its state, memory, open log, reason and exports. -/
theorem answer_of_not_allowed (d : Driver Source Module Instance) :
    (∀ use operation states, use.guard? = some (operation, states) → d.state ∉ states →
      d.answer use = .error
        (if d.state = .faulted then .instanceFaulted else .invalidState operation d.state) ∧
      d.after use = d) ∧
    (d.state = .faulted → ∀ uses : List (Use Source), (∀ use ∈ uses, use.guard?.isSome) →
      d.answers uses = List.replicate uses.length (.error .instanceFaulted) ∧
      d.afterAll uses = d) := by
  refine ⟨?_, ?_⟩
  · intro use operation states hguard hstate
    exact refused_of_not_mem hguard hstate
  · intro hstate uses hguard
    exact answers_of_faulted hstate uses hguard

/-- The driver of two messages after a call under a name that its module does not export. -/
def twoBytesFaulted : Driver Wasm.Source Wasm.Module Wasm.Instance :=
  twoBytesReady.after (.invoke "missing")

/-- The call fails. -/
lemma state_twoBytesFaulted : twoBytesFaulted.state = .faulted := by decide +kernel

/-- A faulted driver refuses all operations and stays as it is.  A new one refuses to link. -/
theorem answer_of_not_allowed_faulted :
    twoBytesFaulted.state = .faulted ∧
      twoBytesFaulted.answers
          [.load (.description emitting), .loadFile none, .link,
            .instantiate (.ofTransfer none ⟨none, 1⟩), .invoke "main"] =
        List.replicate 5 (.error .instanceFaulted) ∧
      twoBytesFaulted.afterAll
          [.load (.description emitting), .loadFile none, .link,
            .instantiate (.ofTransfer none ⟨none, 1⟩), .invoke "main"] =
        twoBytesFaulted ∧
      twoBytes.answer .link = .error (.invalidState .link .unloaded) ∧
      twoBytes.after .link = twoBytes := by
  obtain ⟨_, hforever⟩ := answer_of_not_allowed twoBytesFaulted
  obtain ⟨hanswers, hsame⟩ := hforever state_twoBytesFaulted
    [.load (.description emitting), .loadFile none, .link,
      .instantiate (.ofTransfer none ⟨none, 1⟩), .invoke "main"] (by simp [Use.guard?])
  obtain ⟨hnew, _⟩ := answer_of_not_allowed twoBytes
  obtain ⟨hanswer, hafter⟩ := hnew .link .link [.loaded] rfl (by decide)
  exact ⟨state_twoBytesFaulted, hanswers, hsame, hanswer, hafter⟩

/-! ## Repeated runs -/

/-- In a state that does not allow a call an iteration is refused as well. -/
lemma iterate_of_not_ready (hstate : d.state ≠ .ready) (entry : String) :
    d.iterate entry = (.error (d.refusal .invoke), d) := by
  rw [iterate_eq_invoke (Or.inr hstate), invoke_of_not_ready hstate]

/-- In a state that does not allow a call a run is refused with its first iteration, before anything
is handed to the sink. -/
lemma runWith_of_not_ready (hstate : d.state ≠ .ready) (sink : σ → Log → σ) (entry : String)
    {n : Nat} (hn : n ≠ 0) (s : σ) (records : Nat) :
    runWith sink entry n s records d = ⟨.error (d.refusal .invoke), s, records, d⟩ := by
  obtain ⟨k, rfl⟩ := Nat.exists_eq_succ_of_ne_zero hn
  exact runWith_of_error (iterate_of_not_ready hstate entry) sink k s records

/-- In a state that does not allow a call a run is refused like one, as of a faulted driver or with
the state: nothing is handed to the sink, and nothing changes.  This does not hold of a run without
iterations.  It makes no call, and so it succeeds in every state. -/
theorem runRepeated_of_not_ready (hstate : d.state ≠ .ready) (entry : String) (n : UInt64)
    (sink : σ → Log → σ) (start : σ) :
    (n ≠ 0 →
      d.runRepeatedWith entry n sink start =
        ⟨.error (if d.state = .faulted then .instanceFaulted else .invalidState .invoke d.state),
          start, 0, d⟩ ∧
      d.runRepeated entry n =
        (.error (if d.state = .faulted then .instanceFaulted else .invalidState .invoke d.state),
          d)) ∧
    (n = 0 →
      d.runRepeatedWith entry n sink start = ⟨.ok (), start, 0, d⟩ ∧
      d.runRepeated entry n = (.ok ⟨0, 0, .empty⟩, d)) := by
  refine ⟨fun hn => ?_, ?_⟩
  · have hcount : n.toNat ≠ 0 := fun hzero => hn (UInt64.toNat_inj.1 hzero)
    refine ⟨runWith_of_not_ready hstate sink entry hcount start 0, ?_⟩
    simp only [runRepeated, runRepeatedWith, runWith_of_not_ready hstate _ entry hcount]
    rfl
  · rintro rfl
    exact ⟨rfl, rfl⟩

/-- A new driver refuses a run of three iterations, and a faulted one does as well. -/
theorem runRepeated_of_not_ready_thrice :
    twoBytes.state ≠ .ready ∧
      twoBytes.runRepeatedWith "main" 3 (fun logs log => logs ++ [log]) [] =
        ⟨.error (.invalidState .invoke .unloaded), [], 0, twoBytes⟩ ∧
      twoBytesFaulted.state ≠ .ready ∧
      twoBytesFaulted.runRepeated "main" 3 = (.error .instanceFaulted, twoBytesFaulted) := by
  have hnew : twoBytes.state ≠ .ready := by decide
  have hfaulted : twoBytesFaulted.state ≠ .ready := by
    rw [state_twoBytesFaulted]
    decide
  obtain ⟨hrefused, _⟩ :=
    runRepeated_of_not_ready hnew "main" 3 (fun logs log => logs ++ [log]) []
  obtain ⟨hrefused', _⟩ :=
    runRepeated_of_not_ready hfaulted "main" 3 (fun logs log => logs ++ [log]) []
  obtain ⟨_, hreport⟩ := hrefused' (by decide)
  rw [if_pos state_twoBytesFaulted] at hreport
  exact ⟨hnew, (hrefused (by decide)).1, hfaulted, hreport⟩

/-- Without iterations a run of a new driver succeeds, and so does one of a faulted driver. -/
theorem runRepeated_zero_not_ready :
    Reachable twoBytes.engine twoBytes.registry twoBytes.config twoBytes ∧
      twoBytes.state = .unloaded ∧
      twoBytes.runRepeated "main" 0 = (.ok ⟨0, 0, .empty⟩, twoBytes) ∧
      Reachable twoBytes.engine twoBytes.registry twoBytes.config twoBytesFaulted ∧
      twoBytesFaulted.state = .faulted ∧
      twoBytesFaulted.runRepeated "main" 0 = (.ok ⟨0, 0, .empty⟩, twoBytesFaulted) := by
  have hnew : Reachable twoBytes.engine twoBytes.registry twoBytes.config twoBytes := .new
  have hready := hnew.afterAll
    [.load (.description emitting), .link, .instantiate (.ofTransfer none ⟨none, 1⟩)]
  have hfaulted := hready.after (.invoke "missing")
  exact ⟨hnew, rfl, rfl, hfaulted, state_twoBytesFaulted, rfl⟩

end Driver

end ContractHost
