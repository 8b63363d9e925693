import ContractHost.Proofs.Driver.Report

/-!
# Runs one after the other

The iterations of a repeated run can be shared out between two runs, of which the second goes on
where the first ended, unless that failed.  Nothing tells the two runs from a single one: not the
sink, nor the number of records, nor the error, nor the driver that is left
(`Driver.runRepeatedWith_add`).
-/

namespace ContractHost.Driver

variable {Source Module Instance σ : Type} {d : Driver Source Module Instance}

/-- A run and then another one, of the driver and for the sink that the first left, unless that
failed.  The records of both are counted. -/
def Run.andThen (first : Run Source Module Instance σ)
    (second : σ → Driver Source Module Instance → Run Source Module Instance σ) :
    Run Source Module Instance σ :=
  match first.result with
  | .error _ => first
  | .ok () =>
    let run := second first.sink first.driver
    { run with records := first.records + run.records }

/-- Records that were counted before are counted in addition to those of the run. -/
lemma runWith_add_records (sink : σ → Log → σ) (entry : String) (n : Nat) (s : σ)
    (before records : Nat) (d : Driver Source Module Instance) :
    runWith sink entry n s (before + records) d =
      { runWith sink entry n s records d with
        records := before + (runWith sink entry n s records d).records } := by
  induction n generalizing s records d with
  | zero => rfl
  | succ n ih =>
    rcases hcall : d.iterate entry with ⟨e | log, left⟩
    · rw [runWith_of_error hcall, runWith_of_error hcall]
    · rw [runWith_of_ok hcall, runWith_of_ok hcall, Nat.add_assoc]
      exact ih _ _ _

/-- A run of iterations that are shared out is a run of the first part, and then one of the second
part. -/
lemma runWith_add (sink : σ → Log → σ) (entry : String) (m n : Nat) (s : σ) (records : Nat)
    (d : Driver Source Module Instance) :
    runWith sink entry (m + n) s records d =
      (runWith sink entry m s records d).andThen
        fun s' left => runWith sink entry n s' 0 left := by
  induction m generalizing s records d with
  | zero =>
    rw [Nat.zero_add]
    exact runWith_add_records sink entry n s records 0 d
  | succ m ih =>
    rw [Nat.add_right_comm]
    rcases hcall : d.iterate entry with ⟨e | log, left⟩
    · rw [runWith_of_error hcall, runWith_of_error hcall]
      rfl
    · rw [runWith_of_ok hcall, runWith_of_ok hcall]
      exact ih _ _ _

/-- A run of `m + n` iterations is a run of `m` and then, unless that fails, one of `n`.  If an
iteration fails, the sink was handed the logs of those before it, and nothing else. -/
theorem runRepeatedWith_add (d : Driver Source Module Instance) (entry : String) {m n : UInt64}
    (hcount : m.toNat + n.toNat < UInt64.size) (sink : σ → Log → σ) (start : σ) :
    d.runRepeatedWith entry (m + n) sink start =
        (d.runRepeatedWith entry m sink start).andThen
          (fun s left => left.runRepeatedWith entry n sink s) ∧
      ∃ logs left, Iterates entry d logs left ∧
        (d.runRepeatedWith entry (m + n) sink start).sink = logs.foldl sink start ∧
        (d.runRepeatedWith entry (m + n) sink start).records = (logs.map Log.length).sum ∧
        (logs.length = m.toNat + n.toNat ∧
            (d.runRepeatedWith entry (m + n) sink start).result = .ok () ∧
            (d.runRepeatedWith entry (m + n) sink start).driver = left ∨
          logs.length < m.toNat + n.toNat ∧
            ∃ e, (d.runRepeatedWith entry (m + n) sink start).result = .error e ∧
              left.iterate entry =
                (.error e, (d.runRepeatedWith entry (m + n) sink start).driver)) := by
  have hsum : (m + n).toNat = m.toNat + n.toNat := by
    rw [UInt64.toNat_add]
    exact Nat.mod_eq_of_lt hcount
  unfold runRepeatedWith
  rw [hsum]
  obtain ⟨logs, left, hiterates, hsink, hrecords, hend⟩ :=
    runWith_cases sink entry (m.toNat + n.toNat) start 0 d
  rw [Nat.zero_add] at hrecords
  exact ⟨runWith_add sink entry m.toNat n.toNat start 0 d, logs, left, hiterates, hsink, hrecords,
    hend⟩

/-! ## An engine whose instances get tired -/

/-- An engine whose instances can be called twice.  Each of these calls records a message. -/
def tiring : Engine Unit Unit (Nat × Context) where
  compile _ := .ok ()
  compileFile _ := .ok ()
  imports _ := []
  declaredExports _ := [⟨"main", .function entrySignature⟩]
  instantiate _ _ context := .ok (2, context)
  call
    | (0, context), _ => (.error .fuelExhausted, (0, context))
    | (k + 1, context), _ =>
      (.ok (), (k, { context with log := context.log.push (.diagnostic "done") }))
  context := Prod.snd
  setContext i context := (i.1, context)
  memory _ := .empty
  setMemory i _ := i

/-- A driver of this engine with an instance. -/
def tiringReady : Driver Unit Unit (Nat × Context) :=
  (Driver.new tiring .empty .standard).afterAll
    [.load (), .link, .instantiate (.ofTransfer none ⟨none, 1⟩)]

/-- Three iterations fail like one that succeeds and then two of which the second fails, with the
logs of the first two handed over. -/
theorem runRepeatedWith_add_tiring :
    (1 : UInt64).toNat + (2 : UInt64).toNat < UInt64.size ∧
      (tiringReady.runRepeatedWith "main" 1 (fun logs log => logs ++ [log]) []).result = .ok () ∧
      tiringReady.runRepeatedWith "main" (1 + 2) (fun logs log => logs ++ [log]) [] =
        (tiringReady.runRepeatedWith "main" 1 (fun logs log => logs ++ [log]) []).andThen
          (fun s left => left.runRepeatedWith "main" 2 (fun logs log => logs ++ [log]) s) ∧
      (tiringReady.runRepeatedWith "main" (1 + 2) (fun logs log => logs ++ [log]) []).sink =
        [.ofList [.diagnostic "done"], .ofList [.diagnostic "done"]] ∧
      (tiringReady.runRepeatedWith "main" (1 + 2) (fun logs log => logs ++ [log]) []).result =
        .error .fuelExhausted := by
  have hcount : (1 : UInt64).toNat + (2 : UInt64).toNat < UInt64.size := by decide
  obtain ⟨hadd, _⟩ :=
    runRepeatedWith_add tiringReady "main" hcount (fun logs log => logs ++ [log]) []
  exact ⟨hcount, rfl, hadd, rfl, rfl⟩

end ContractHost.Driver
