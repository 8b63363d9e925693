import ContractHost.Proofs.Wasm.HostCalls

/-!
# What a step can do

A step goes on in the guest's own code, and then the memory is kept, written inside its bounds or
grown by pages that the program allows; or it hands context and memory to a host function; or it
ends the call.  `Machine.steps` says so once for all instructions, with what is left behind in each
case, and everything that is known of whole runs comes from it.

Fuel is burnt by instructions (`Instr.cost`) and by entering functions, and looked at where a
function of the guest or the body of a loop begins (`Machine.looksAtFuel`).
-/

namespace ContractHost.Wasm

/-! ## Fuel -/

/-- The fuel that an instruction burns. -/
def Instr.cost : Instr → Nat
  | .block _ | .loop _ | .ret | .drop | .nop | .unreachable => 0
  | _ => 1

namespace Machine

variable {p : Program} {m m' : Machine} {rest : List Instr}

/-- The fuel that the instruction of the next step burns; there is none where a block or a function
ends. -/
def instrCost (m : Machine) : Nat :=
  match m.frame.code with
  | [] => 0
  | i :: _ => i.cost

/-- Whether the label at the depth is that of a loop. -/
def repeatsAt (m : Machine) (depth : Nat) : Bool :=
  match m.frame.labels.drop depth with
  | [] => false
  | label :: _ => label.again.isSome

/-- Whether the next step begins the body of a loop. -/
def entersLoop (m : Machine) : Bool :=
  match m.frame.code with
  | .loop _ :: _ => true
  | .br depth :: _ => m.repeatsAt depth
  | .brIf depth :: _ => top m.frame.stack ≠ 0 && m.repeatsAt depth
  | _ => false

/-- Whether the next step calls a function of the guest. -/
def entersFunction (p : Program) (m : Machine) : Bool :=
  match m.frame.code with
  | .call index :: _ =>
    match p.callee? index with
    | some (.guest _) => true
    | _ => false
  | _ => false

/-- Whether fuel is looked at in the next step. -/
def looksAtFuel (p : Program) (m : Machine) : Bool := m.entersLoop || m.entersFunction p

/-- The fuel that the next step burns. -/
def cost (p : Program) (m : Machine) : Nat :=
  m.instrCost + if m.entersFunction p then 1 else 0

end Machine

/-! ## One step -/

namespace Machine

variable {p : Program} {m m' : Machine} {rest : List Instr}

/-- Whether the next instruction is one that can change the memory. -/
def mayChangeMemory (m : Machine) : Bool :=
  match m.frame.code with
  | .store :: _ => true
  | .storeByte :: _ => true
  | .memoryGrow :: _ => true
  | _ => false

/-- What a guest can do to its memory in one step. -/
inductive Changes (p : Program) (m : Machine) : Memory → Prop
  | kept : Changes p m m.memory
  | written {start : Nat} {data : ByteArray} (hcode : m.mayChangeMemory = true)
    (h : start + data.size ≤ m.memory.capacity) : Changes p m (m.memory.splice start data)
  | grown {pages : Nat} (hcode : m.mayChangeMemory = true)
    (h : p.mayGrow (m.memory.pages + pages) = true) :
    Changes p m (m.memory.grow (pages * pageSize))

/-- What the step of a machine comes to. -/
inductive Steps (p : Program) (m : Machine) : Step → Prop
  | moves {m' : Machine} (hcall : m.hostCall? p = none) (hfuel : m'.fuel = m.fuel - m.cost p)
    (hmemory : m.Changes p m'.memory) (hcontext : m'.context = m.context) :
    Steps p m (.next m')
  | served {m' : Machine} {call : HostCall} {answer : Option Int32}
    (hcall : m.hostCall? p = some call) (hresult : call.reply.result = .ok answer)
    (hfuel : m'.fuel = m.fuel - m.cost p) (hmemory : m'.memory = call.reply.memory)
    (hcontext : m'.context = call.reply.context) : Steps p m (.next m')
  | refused {fuel : Nat} {call : HostCall} {e : HostError} (hcall : m.hostCall? p = some call)
    (hresult : call.reply.result = .error e) :
    Steps p m (.halt ⟨fuel, call.reply.memory, call.reply.context, .refused e⟩)
  | unanswered {fuel : Nat} {call : HostCall} {answer : Option Int32}
    (hcall : m.hostCall? p = some call) (hresult : call.reply.result = .ok answer) :
    Steps p m (.halt ⟨fuel, call.reply.memory, call.reply.context, .trapped .resultMissing⟩)
  | trapped {fuel : Nat} {t : Trap} (hcall : m.hostCall? p = none) :
    Steps p m (.halt ⟨fuel, m.memory, m.context, .trapped t⟩)
  | exhausted {fuel : Nat} (hcall : m.hostCall? p = none) (hlooks : m.looksAtFuel p = true)
    (hfuel : m.fuel ≤ m.instrCost) :
    Steps p m (.halt ⟨fuel, m.memory, m.context, .fuelExhausted⟩)
  | finished {fuel : Nat} (hcall : m.hostCall? p = none) :
    Steps p m (.halt ⟨fuel, m.memory, m.context, .finished⟩)

/-- The second machine is the first with its step paid for, and with its memory and its context. -/
structure Paid (p : Program) (m m' : Machine) : Prop where
  /-- No host function is called. -/
  hostCall : m.hostCall? p = none
  /-- The fuel of the step is burnt. -/
  fuel : m'.fuel = m.fuel - m.cost p
  /-- The memory is the same. -/
  memory : m'.memory = m.memory
  /-- The context is the same. -/
  context : m'.context = m.context

namespace Paid

/-- Going on with the same memory. -/
lemma next (h : Paid p m m') : Steps p m (.next m') := by
  refine .moves h.hostCall h.fuel ?_ h.context
  rw [h.memory]
  exact .kept

/-- Stopping at a trap. -/
lemma trap (h : Paid p m m') (t : Trap) : Steps p m (m'.trap t) := by
  rw [Machine.trap, Machine.halt, h.memory, h.context]
  exact .trapped h.hostCall

/-- Going on with other code and operands. -/
lemma proceed (h : Paid p m m') (code : List Instr) (stack : List UInt32) :
    Steps p m (m'.proceed code stack) :=
  next ⟨h.hostCall, h.fuel, h.memory, h.context⟩

/-- Leaving a function. -/
lemma leaveFunction (h : Paid p m m') : Steps p m m'.leaveFunction := by
  unfold Machine.leaveFunction
  split
  · rw [Machine.halt, h.memory, h.context]
    exact .finished h.hostCall
  · exact next ⟨h.hostCall, h.fuel, h.memory, h.context⟩

/-- Starting a loop, which needs fuel. -/
lemma enterLoop (h : Paid p m m') (hloop : m.entersLoop = true)
    (hcost : m.cost p = m.instrCost) (body : List Instr) (label : Label) (outer : List Label) :
    Steps p m (m'.enterLoop body label outer) := by
  unfold Machine.enterLoop
  split
  next hzero =>
    rw [h.fuel, hcost] at hzero
    rw [Machine.halt, h.memory, h.context]
    refine .exhausted h.hostCall ?_ (Nat.le_of_sub_eq_zero hzero)
    rw [looksAtFuel, hloop, Bool.true_or]
  next => exact next ⟨h.hostCall, h.fuel, h.memory, h.context⟩

/-- Branching, which needs fuel if it goes back to the beginning of a loop. -/
lemma branchTo {depth : Nat} (h : Paid p m m') (hlabels : m'.frame.labels = m.frame.labels)
    (hloop : m.repeatsAt depth = true → m.entersLoop = true) (hcost : m.cost p = m.instrCost) :
    Steps p m (m'.branchTo depth) := by
  unfold Machine.branchTo
  rw [hlabels]
  split
  · exact h.leaveFunction
  next label outer hdrop =>
    split
    · exact next ⟨h.hostCall, h.fuel, h.memory, h.context⟩
    next body hagain =>
      refine h.enterLoop (hloop ?_) hcost _ _ _
      rw [repeatsAt, hdrop]
      exact congrArg Option.isSome hagain

/-- Reading the memory. -/
lemma fetch (h : Paid p m m') (rest : List Instr) (read : Memory → UInt32 → Option UInt32) :
    Steps p m (m'.fetch rest read) := by
  unfold Machine.fetch
  split
  · exact h.proceed _ _
  · exact h.trap _

/-- Writing to the memory. -/
lemma put (h : Paid p m m') (hcode : m.mayChangeMemory = true) (rest : List Instr)
    (form : UInt32 → ByteArray) : Steps p m (m'.put rest form) := by
  unfold Machine.put
  dsimp only
  split
  next hinside =>
    refine .moves h.hostCall h.fuel ?_ h.context
    rw [h.memory] at hinside
    dsimp only
    rw [h.memory]
    exact .written hcode hinside
  · exact h.trap _

/-- Growing the memory, or being told that it does not grow. -/
lemma growMemory (h : Paid p m m') (hcode : m.mayChangeMemory = true) (rest : List Instr) :
    Steps p m (m'.growMemory p rest) := by
  unfold Machine.growMemory
  dsimp only
  split
  next hroom =>
    refine .moves h.hostCall h.fuel ?_ h.context
    rw [h.memory] at hroom
    dsimp only
    rw [h.memory]
    exact .grown hcode hroom
  · exact h.proceed _ _

end Paid

/-- A call of a host function is served or refused, or it leaves a result open. -/
lemma steps_callHost {index : Nat} {b : Binding} (hcode : m.frame.code = .call index :: rest)
    (hb : p.callee? index = some (.host b)) : Steps p m (m.burn.callHost b rest) := by
  have hcall : m.hostCall? p = some ⟨b, m.context, m.memory,
      (takeArguments b.signature.params m.frame.stack).1.map UInt32.toInt32⟩ := by
    simp only [hostCall?, hcode, hb]
  have hcost : m.cost p = 1 := by
    simp only [cost, instrCost, Instr.cost, entersFunction, hcode, hb]
    rfl
  unfold callHost
  dsimp only
  split
  next e he => exact .refused hcall he
  next answer hanswer =>
    split
    · exact .unanswered hcall hanswer
    · refine .served hcall hanswer ?_ rfl rfl
      rw [hcost]
      rfl

/-- A call of a function of the guest enters it, if there is fuel left. -/
lemma steps_enterFunction {index : Nat} {f : Function} (hcode : m.frame.code = .call index :: rest)
    (hf : p.callee? index = some (.guest f)) (arguments stack : List UInt32) :
    Steps p m (m.burn.enterFunction f arguments rest stack) := by
  have hcall : m.hostCall? p = none := by
    simp only [hostCall?, hcode, hf]
  have henters : m.entersFunction p = true := by
    simp only [entersFunction, hcode, hf]
  have hinstr : m.instrCost = 1 := by
    simp only [instrCost, hcode]
    rfl
  unfold enterFunction
  split
  next hzero =>
    refine .exhausted hcall ?_ ?_
    · rw [looksAtFuel, henters, Bool.or_true]
    · rw [hinstr]
      exact Nat.le_of_sub_eq_zero hzero
  next =>
    refine .moves hcall ?_ .kept rfl
    rw [cost, hinstr, henters]
    show m.fuel - 1 - 1 = m.fuel - (1 + 1)
    omega

/-- What an instruction that calls no function comes to. -/
lemma steps_exec {i : Instr} (hi : ∀ index, i ≠ .call index) (hcode : m.frame.code = i :: rest) :
    Steps p m (exec p m rest i) := by
  have hcall : m.hostCall? p = none := by
    unfold hostCall?
    rw [hcode]
    split
    next index _ hhead =>
      cases hhead
      exact absurd rfl (hi index)
    next => rfl
  have hinstr : m.instrCost = i.cost := by rw [instrCost, hcode]
  have hcost : m.cost p = i.cost := by
    have henters : m.entersFunction p = false := by
      unfold entersFunction
      rw [hcode]
      split
      next index _ hhead =>
        cases hhead
        exact absurd rfl (hi index)
      next => rfl
    rw [cost, henters, hinstr]
    rfl
  -- An instruction burns one unit, or none.
  have hburnt : i.cost = 1 → Paid p m m.burn := by
    intro hone
    refine ⟨hcall, ?_, rfl, rfl⟩
    rw [hcost, hone]
    rfl
  have hfree : i.cost = 0 → Paid p m m := by
    intro hzero
    refine ⟨hcall, ?_, rfl, rfl⟩
    rw [hcost, hzero]
    rfl
  have hsame : m.cost p = m.instrCost := hcost.trans hinstr.symm
  cases i with
  | call index => exact absurd rfl (hi index)
  | binary op =>
    rw [exec]
    split
    · exact (hburnt rfl).proceed _ _
    · exact (hburnt rfl).trap _
  | load => exact (hburnt rfl).fetch _ _
  | loadByte => exact (hburnt rfl).fetch _ _
  | store => exact (hburnt rfl).put (by rw [mayChangeMemory, hcode]) _ _
  | storeByte => exact (hburnt rfl).put (by rw [mayChangeMemory, hcode]) _ _
  | memoryGrow => exact (hburnt rfl).growMemory (by rw [mayChangeMemory, hcode]) _
  | block body =>
    obtain ⟨_, hfuel, hmemory, hcontext⟩ := hfree rfl
    exact Paid.next ⟨hcall, hfuel, hmemory, hcontext⟩
  | loop body =>
    refine (hfree rfl).enterLoop ?_ hsame _ _ _
    rw [entersLoop, hcode]
  | branch whenTrue whenFalse =>
    obtain ⟨_, hfuel, hmemory, hcontext⟩ := hburnt rfl
    exact Paid.next ⟨hcall, hfuel, hmemory, hcontext⟩
  | br depth =>
    refine (hburnt rfl).branchTo rfl ?_ hsame
    intro hrepeats
    rw [entersLoop, hcode]
    exact hrepeats
  | brIf depth =>
    obtain ⟨_, hfuel, hmemory, hcontext⟩ := hburnt rfl
    rw [exec]
    split
    next htop =>
      refine Paid.branchTo ⟨hcall, hfuel, hmemory, hcontext⟩ rfl ?_ hsame
      intro hrepeats
      simp only [entersLoop, hcode, hrepeats, decide_eq_true htop, Bool.and_true]
    next => exact Paid.proceed ⟨hcall, hfuel, hmemory, hcontext⟩ _ _
  | ret => exact (hfree rfl).leaveFunction
  | drop => exact (hfree rfl).proceed _ _
  | nop => exact (hfree rfl).proceed _ _
  | unreachable => exact (hfree rfl).trap _
  | const w => exact (hburnt rfl).proceed _ _
  | memorySize => exact (hburnt rfl).proceed _ _
  | localGet n => exact (hburnt rfl).proceed _ _
  | localSet n =>
    obtain ⟨_, hfuel, hmemory, hcontext⟩ := hburnt rfl
    exact Paid.next ⟨hcall, hfuel, hmemory, hcontext⟩
  | localTee n =>
    obtain ⟨_, hfuel, hmemory, hcontext⟩ := hburnt rfl
    exact Paid.next ⟨hcall, hfuel, hmemory, hcontext⟩
  | floatConst w => exact (hburnt rfl).proceed _ _
  | floatDiv => exact (hburnt rfl).proceed _ _
  | reinterpret => exact (hburnt rfl).proceed _ _

/-- What the step of a machine comes to. -/
theorem steps (p : Program) (m : Machine) : Steps p m (m.step p) := by
  unfold step
  split
  next i rest hcode =>
    by_cases hi : ∃ index, i = .call index
    · obtain ⟨index, rfl⟩ := hi
      simp only [exec, callIndex]
      split
      next hnone =>
        have hcall : m.hostCall? p = none := by
          simp only [hostCall?, hcode, hnone]
        exact .trapped hcall
      next b hb => exact steps_callHost hcode hb
      next f hf => exact steps_enterFunction hcode hf _ _
    · exact steps_exec (fun index hindex => hi ⟨index, hindex⟩) hcode
  next hcode =>
    have hpaid : Paid p m m := by
      refine ⟨?_, ?_, rfl, rfl⟩
      · rw [hostCall?, hcode]
      · simp only [cost, instrCost, entersFunction, hcode]
        rfl
    split
    · exact Paid.next ⟨hpaid.hostCall, hpaid.fuel, rfl, rfl⟩
    · exact hpaid.leaveFunction

/-- A step that calls no host function and is no store or growth keeps the memory. -/
lemma memory_of_step_eq_next (hcall : m.hostCall? p = none) (hkept : m.mayChangeMemory = false)
    (h : m.step p = .next m') : m'.memory = m.memory := by
  have hsteps := steps p m
  rw [h] at hsteps
  cases hsteps with
  | moves _ _ hmemory _ =>
    generalize m'.memory = memory at hmemory
    cases hmemory with
    | kept => rfl
    | written hcode _ => cases hkept.symm.trans hcode
    | grown hcode _ => cases hkept.symm.trans hcode
  | served hsome _ _ _ _ => cases hcall.symm.trans hsome

/-- Where fuel is looked at and there is none left, the call ends for that. -/
lemma step_of_fuel_le (hlooks : m.looksAtFuel p = true) (hfuel : m.fuel ≤ m.instrCost) :
    ∃ fuel, m.step p = .halt ⟨fuel, m.memory, m.context, .fuelExhausted⟩ := by
  have hbranch : ∀ {m' : Machine} {depth : Nat}, m'.fuel = 0 → m'.memory = m.memory →
      m'.context = m.context → m'.repeatsAt depth = true →
        m'.branchTo depth = .halt ⟨m'.fuel, m.memory, m.context, .fuelExhausted⟩ := by
    intro m' depth hzero hmemory hcontext hrepeats
    cases hdrop : m'.frame.labels.drop depth with
    | nil =>
      rw [repeatsAt, hdrop] at hrepeats
      cases hrepeats
    | cons label outer =>
      rw [repeatsAt, hdrop] at hrepeats
      obtain ⟨body, hagain⟩ := Option.isSome_iff_exists.1 hrepeats
      simp only [branchTo, hdrop, hagain, enterLoop, if_pos hzero, halt, hmemory, hcontext]
  unfold looksAtFuel at hlooks
  rcases Bool.or_eq_true_iff.1 hlooks with hloop | hfunction
  · unfold entersLoop at hloop
    split at hloop
    next body rest hcode =>
      have hzero : m.fuel = 0 := by
        rw [instrCost, hcode] at hfuel
        exact Nat.le_zero.1 hfuel
      exact ⟨m.fuel, by simp only [step, hcode, exec, enterLoop, if_pos hzero, halt]⟩
    next depth rest hcode =>
      have hzero : m.burn.fuel = 0 := by
        rw [instrCost, hcode] at hfuel
        exact Nat.sub_eq_zero_of_le hfuel
      exact ⟨_, by simp only [step, hcode, exec]; exact hbranch hzero rfl rfl hloop⟩
    next depth rest hcode =>
      rw [Bool.and_eq_true, decide_eq_true_iff] at hloop
      have hzero : m.burn.popOperand.fuel = 0 := by
        rw [instrCost, hcode] at hfuel
        exact Nat.sub_eq_zero_of_le hfuel
      refine ⟨m.burn.popOperand.fuel, ?_⟩
      simp only [step, hcode, exec, if_pos hloop.1]
      exact hbranch hzero rfl rfl hloop.2
    next => cases hloop
  · unfold entersFunction at hfunction
    split at hfunction
    next index rest hcode =>
      split at hfunction
      next f hf =>
        have hzero : m.burn.fuel = 0 := by
          rw [instrCost, hcode] at hfuel
          exact Nat.sub_eq_zero_of_le hfuel
        refine ⟨m.burn.fuel, ?_⟩
        simp only [step, hcode, exec, callIndex, hf, enterFunction, if_pos hzero, halt]
        rfl
      next => cases hfunction
    next => cases hfunction

end Machine

end ContractHost.Wasm
