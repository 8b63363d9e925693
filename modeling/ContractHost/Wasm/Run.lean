import ContractHost.Wasm.Machine

/-!
# Runs

A machine runs to its end because every step makes it lighter: there is less fuel, or as much fuel
and less code to run.  `Machine.run` is therefore defined for every machine, without a bound of its
own.
-/

namespace ContractHost.Wasm

namespace Machine

/-- A machine is lighter than another if it has less fuel, or as much and less code to run. -/
def Lighter (m' m : Machine) : Prop :=
  m'.fuel < m.fuel ∨ m'.fuel = m.fuel ∧ m'.weight < m.weight

/-- What a machine has still to run around the code of its function. -/
def restWeight (m : Machine) : Nat := labelsWeight m.frame.labels + 1 + framesWeight m.callers

theorem weight_eq (m : Machine) : m.weight = bodyWeight m.frame.code + m.restWeight := by
  simp only [weight, Frame.weight, restWeight]
  omega

theorem labelsWeight_cons (l : Label) (ls : List Label) :
    labelsWeight (l :: ls) = bodyWeight l.after + 1 + labelsWeight ls := by
  simp [labelsWeight, Label.weight]

theorem framesWeight_cons (f : Frame) (fs : List Frame) :
    framesWeight (f :: fs) = f.weight + framesWeight fs := by
  simp [framesWeight]

theorem labelsWeight_drop_le (ls : List Label) (n : Nat) :
    labelsWeight (ls.drop n) ≤ labelsWeight ls := by
  induction ls generalizing n with
  | nil => simp
  | cons l ls ih =>
    cases n with
    | zero => simp
    | succ n =>
      have := ih n
      rw [labelsWeight_cons, List.drop_succ_cons]
      omega

variable {p : Program} {m m' : Machine} {rest : List Instr}

/-- Leaving a function leaves less to run. -/
theorem leaveFunction_next (h : m.leaveFunction = .next m') :
    m'.fuel = m.fuel ∧ m'.weight < m.weight := by
  unfold leaveFunction at h
  split at h
  · cases h
  next caller callers hc =>
    cases h
    refine ⟨rfl, ?_⟩
    simp only [weight, hc, framesWeight_cons, Frame.weight]
    omega

/-- Leaving a block leaves less to run than there was around the code. -/
theorem leaveBlock_next {label : Label} {outer : List Label}
    (h : m.leaveBlock label outer = .next m')
    (hl : labelsWeight (label :: outer) ≤ labelsWeight m.frame.labels) :
    m'.fuel = m.fuel ∧ m'.weight < m.restWeight := by
  cases h
  refine ⟨rfl, ?_⟩
  rw [labelsWeight_cons] at hl
  simp only [weight, Frame.weight, restWeight]
  omega

/-- A branch ends the function, leaves a block, or starts a loop with fuel to burn. -/
theorem branchTo_next {n : Nat} (h : m.branchTo n = .next m') :
    m'.fuel = m.fuel ∧ (m'.weight < m.weight ∨ 0 < m.fuel) := by
  unfold branchTo at h
  split at h
  · exact ⟨(leaveFunction_next h).1, .inl (leaveFunction_next h).2⟩
  next label outer hd =>
    have hl := labelsWeight_drop_le m.frame.labels n
    rw [hd] at hl
    split at h
    · have := leaveBlock_next h hl
      have := weight_eq m
      omega
    · unfold enterLoop halt at h
      split at h
      · cases h
      next hf =>
        cases h
        exact ⟨rfl, .inr (Nat.pos_of_ne_zero hf)⟩

theorem callHost_next {b : Binding} (h : m.callHost b rest = .next m') :
    m'.fuel = m.fuel ∧ m'.weight = bodyWeight rest + m.restWeight := by
  unfold callHost halt at h
  simp only at h
  split at h
  · cases h
  · split at h
    · cases h
    · cases h
      exact ⟨rfl, weight_eq _⟩

theorem callIndex_next {i : Nat} (h : m.callIndex p i rest = .next m') :
    m'.fuel < m.fuel ∨ m'.fuel = m.fuel ∧ m'.weight = bodyWeight rest + m.restWeight := by
  unfold callIndex at h
  split at h
  · cases h
  · exact .inr (callHost_next h)
  · simp only [enterFunction] at h
    split at h
    · cases h
    next hf =>
      cases h
      left
      simp only [burn]
      omega

/-- An instruction makes a machine lighter. -/
theorem exec_next {i : Instr} (hc : m.frame.code = i :: rest)
    (h : exec p m rest i = .next m') : Lighter m' m := by
  have hw : m.weight = i.weight + bodyWeight rest + m.restWeight := by
    rw [weight_eq, hc, bodyWeight]
  have hi := i.weight_pos
  have hb : m.burn.weight = m.weight := rfl
  have hr : m.burn.restWeight = m.restWeight := rfl
  have hf : m.burn.fuel = m.fuel - 1 := rfl
  have plain : ∀ {m₀ : Machine}, m₀.fuel = m.fuel - 1 →
      m₀.weight = bodyWeight rest + m.restWeight → Lighter m₀ m := by
    intro m₀ h₁ h₂
    unfold Lighter
    omega
  unfold Lighter
  cases i with
  | binary op =>
    simp only [exec] at h
    split at h
    · cases h
      exact plain rfl (weight_eq _)
    · cases h
  | load =>
    simp only [exec, fetch] at h
    split at h
    · cases h
      exact plain rfl (weight_eq _)
    · cases h
  | loadByte =>
    simp only [exec, fetch] at h
    split at h
    · cases h
      exact plain rfl (weight_eq _)
    · cases h
  | store =>
    simp only [exec, put] at h
    split at h
    · cases h
      exact plain rfl (weight_eq _)
    · cases h
  | storeByte =>
    simp only [exec, put] at h
    split at h
    · cases h
      exact plain rfl (weight_eq _)
    · cases h
  | memoryGrow =>
    simp only [exec, growMemory] at h
    split at h
    · cases h
      exact plain rfl (weight_eq _)
    · cases h
      exact plain rfl (weight_eq _)
  | block body =>
    cases h
    right
    refine ⟨rfl, ?_⟩
    rw [hw]
    simp only [weight, Frame.weight, restWeight, labelsWeight_cons, Instr.weight]
    omega
  | loop body =>
    simp only [exec, enterLoop] at h
    split at h
    · cases h
    · cases h
      right
      refine ⟨rfl, ?_⟩
      rw [hw]
      simp only [weight, Frame.weight, restWeight, labelsWeight_cons, Instr.weight]
      omega
  | branch whenTrue whenFalse =>
    cases h
    have hle : bodyWeight (if top m.frame.stack ≠ 0 then whenTrue else whenFalse) ≤
        bodyWeight whenTrue + bodyWeight whenFalse := by
      split <;> omega
    have : m.weight = bodyWeight whenTrue + bodyWeight whenFalse + 2 + bodyWeight rest +
        m.restWeight := hw
    simp only [weight, Frame.weight, restWeight, labelsWeight_cons, burn] at *
    omega
  | br n =>
    have := branchTo_next h
    omega
  | brIf n =>
    simp only [exec] at h
    split at h
    · have := branchTo_next h
      have h₁ : m.burn.popOperand.weight = m.weight := rfl
      have h₂ : m.burn.popOperand.fuel = m.fuel - 1 := rfl
      omega
    · cases h
      exact plain rfl (weight_eq _)
  | call n =>
    have := callIndex_next h
    omega
  | ret => exact .inr (leaveFunction_next h)
  | drop =>
    cases h
    right
    refine ⟨rfl, ?_⟩
    rw [hw, weight_eq]
    show bodyWeight rest + m.restWeight < _
    omega
  | nop =>
    cases h
    right
    refine ⟨rfl, ?_⟩
    rw [hw, weight_eq]
    show bodyWeight rest + m.restWeight < _
    omega
  | unreachable => cases h
  | const w =>
    cases h
    exact plain rfl (weight_eq _)
  | memorySize =>
    cases h
    exact plain rfl (weight_eq _)
  | localGet n =>
    cases h
    exact plain rfl (weight_eq _)
  | localSet n =>
    cases h
    exact plain rfl (weight_eq _)
  | localTee n =>
    cases h
    exact plain rfl (weight_eq _)
  | floatConst w =>
    cases h
    exact plain rfl (weight_eq _)
  | floatDiv =>
    cases h
    exact plain rfl (weight_eq _)
  | reinterpret =>
    cases h
    exact plain rfl (weight_eq _)

/-- Every step makes a machine lighter. -/
theorem lighter_of_step (h : m.step p = .next m') : Lighter m' m := by
  unfold step at h
  split at h
  next i rest hc => exact exec_next hc h
  next hc =>
    split at h
    next label outer hl =>
      have := leaveBlock_next h (Nat.le_of_eq (congrArg labelsWeight hl.symm))
      have := weight_eq m
      unfold Lighter
      omega
    next => exact .inr (leaveFunction_next h)

/-- Runs a machine to its end. -/
def run (p : Program) (m : Machine) : Halt :=
  match _h : m.step p with
  | .halt r => r
  | .next m' => run p m'
termination_by (m.fuel, m.weight)
decreasing_by
  rcases lighter_of_step _h with h | ⟨h, hw⟩
  · exact Prod.Lex.left _ _ h
  · rw [h]
    exact Prod.Lex.right _ hw

end Machine

end ContractHost.Wasm
