import ContractHost.Proofs.Driver.Dispatch

/-!
# Stretches of a run

A run is worked out in stretches.  `Machine.LeadsTo` is a stretch from one machine to another, with
the host functions that are called on it, and `Machine.EndsIn` is a stretch to the end of the run.
Stretches follow each other (`LeadsTo.trans`, `LeadsTo.endsIn`), and steps that call no host
function can be done at once (`Machine.advance`, `leadsTo_of_advance`).

The steps that depend on the memory or on the fuel have a lemma each: reading a byte, storing a
word, beginning the body of a loop, and calling a host function.
-/

namespace ContractHost.Wasm

namespace Machine

variable {p : Program} {m m' m'' : Machine} {calls more : List HostCall} {halt : Halt}
  {rest : List Instr} {below : List UInt32}

/-- A run of the first machine comes to the second, with calls of host functions on the way. -/
structure LeadsTo (p : Program) (m : Machine) (calls : List HostCall) (m' : Machine) : Prop where
  /-- Both runs end alike. -/
  run_eq : m.run p = m'.run p
  /-- The calls on the way come first. -/
  hostCalls_eq : m.hostCalls p = calls ++ m'.hostCalls p

/-- A run of the machine ends, with calls of host functions on the way. -/
structure EndsIn (p : Program) (m : Machine) (calls : List HostCall) (halt : Halt) : Prop where
  /-- The end of the run. -/
  run_eq : m.run p = halt
  /-- The calls of the run. -/
  hostCalls_eq : m.hostCalls p = calls

/-! ## Putting stretches together -/

/-- A machine leads to itself. -/
lemma LeadsTo.refl (p : Program) (m : Machine) : LeadsTo p m [] m := ⟨rfl, rfl⟩

/-- Stretches follow each other. -/
lemma LeadsTo.trans (h : LeadsTo p m calls m') (h' : LeadsTo p m' more m'') :
    LeadsTo p m (calls ++ more) m'' := by
  refine ⟨h.run_eq.trans h'.run_eq, ?_⟩
  rw [h.hostCalls_eq, h'.hostCalls_eq, List.append_assoc]

/-- The last stretch leads to the end. -/
lemma LeadsTo.endsIn (h : LeadsTo p m calls m') (h' : EndsIn p m' more halt) :
    EndsIn p m (calls ++ more) halt := by
  refine ⟨h.run_eq.trans h'.run_eq, ?_⟩
  rw [h.hostCalls_eq, h'.hostCalls_eq]

/-- A step is a stretch. -/
lemma leadsTo_of_next (h : m.step p = .next m') : LeadsTo p m (m.hostCall? p).toList m' :=
  ⟨run_of_next h, hostCalls_of_next h⟩

/-- A step that ends the run is the last stretch. -/
lemma endsIn_of_halt (h : m.step p = .halt halt) : EndsIn p m (m.hostCall? p).toList halt :=
  ⟨run_of_halt h, hostCalls_of_halt h⟩

/-- A step that calls no host function is a stretch without calls. -/
lemma leadsTo_of_silent (hcall : m.hostCall? p = none) (h : m.step p = .next m') :
    LeadsTo p m [] m' := by
  have hstep := leadsTo_of_next h
  rw [hcall] at hstep
  exact hstep

/-- The machine after a number of steps, if they all go on and call no host function. -/
def advance (p : Program) : Nat → Machine → Option Machine
  | 0, m => some m
  | n + 1, m =>
    match m.hostCall? p, m.step p with
    | none, .next m' => advance p n m'
    | _, _ => none

/-- Steps that call no host function are a stretch without calls. -/
lemma leadsTo_of_advance {n : Nat} (h : advance p n m = some m') : LeadsTo p m [] m' := by
  induction n generalizing m with
  | zero =>
    cases h
    exact .refl p _
  | succ n ih =>
    rw [advance] at h
    split at h
    next hcall hstep => exact (leadsTo_of_silent hcall hstep).trans (ih h)
    next => cases h

/-! ## Steps that depend on what is there -/

/-- Without fuel the body of a loop does not begin. -/
lemma endsIn_of_enterLoop {body : List Instr} {label : Label} {outer : List Label}
    (hcall : m.hostCall? p = none) (hstep : m.step p = m'.enterLoop body label outer)
    (hfuel : m'.fuel = 0) : EndsIn p m [] ⟨0, m'.memory, m'.context, .fuelExhausted⟩ := by
  have hend : m.step p = .halt ⟨0, m'.memory, m'.context, .fuelExhausted⟩ := by
    rw [hstep, enterLoop, if_pos hfuel, Machine.halt, hfuel]
  have hlast := endsIn_of_halt hend
  rw [hcall] at hlast
  exact hlast

/-- With fuel the body of a loop begins. -/
lemma leadsTo_of_enterLoop {body : List Instr} {label : Label} {outer : List Label}
    (hcall : m.hostCall? p = none) (hstep : m.step p = m'.enterLoop body label outer)
    (hfuel : m'.fuel ≠ 0) : LeadsTo p m []
      { m' with frame :=
        { m'.frame with code := body, stack := [], labels := label :: outer } } := by
  refine leadsTo_of_silent hcall ?_
  rw [hstep, enterLoop, if_neg hfuel]

/-- A byte that is in the memory becomes an operand. -/
lemma leadsTo_of_loadByte {address : UInt32} {b : UInt8}
    (hcode : m.frame.code = .loadByte :: rest) (hstack : m.frame.stack = address :: below)
    (hbyte : m.memory.bytes[address.toNat]? = some b) : LeadsTo p m []
      { m.burn with frame := { m.frame with code := rest, stack := b.toUInt32 :: below } } := by
  have hread : loadByte? m.memory address = some b.toUInt32 := by rw [loadByte?, hbyte]; rfl
  refine leadsTo_of_silent ?_ ?_
  · simp only [hostCall?, hcode]
  · simp only [step, hcode, exec, fetch, burn, hstack, top, List.headD_cons, hread, proceed,
      List.tail_cons]

/-- A word is stored where there is room for its bytes. -/
lemma leadsTo_of_store {address word : UInt32} (hcode : m.frame.code = .store :: rest)
    (hstack : m.frame.stack = word :: address :: below)
    (hroom : address.toNat + 4 ≤ m.memory.capacity) : LeadsTo p m []
      { m.burn with
        memory := m.memory.splice address.toNat (wordBytes word)
        frame := { m.frame with code := rest, stack := below } } := by
  have hroom' : address.toNat + (wordBytes word).size ≤ m.memory.capacity := hroom
  refine leadsTo_of_silent ?_ ?_
  · simp only [hostCall?, hcode]
  · simp only [step, hcode, exec, put, burn, hstack, top, List.headD_cons, List.tail_cons,
      if_pos hroom', proceed]

/-- A host function that is served leaves its results as operands. -/
lemma leadsTo_of_served {b : Binding} {k : Nat} {arguments results : List UInt32}
    {context : Context} {memory : Memory} {answer : Option Int32}
    (hcode : m.frame.code = .call k :: rest) (hb : p.callee? k = some (.host b))
    (harguments : takeArguments b.signature.params m.frame.stack = (arguments, below))
    (hreply : m.replyOf b arguments = ⟨context, memory, .ok answer⟩)
    (hresults : resultsOf b.signature.results answer = some results) :
    LeadsTo p m [⟨b, m.context, m.memory, arguments.map UInt32.toInt32⟩]
      (m.resumed ⟨context, memory, .ok answer⟩ rest (results ++ below)) := by
  have hstep := step_call_of_ok hcode hb harguments (congrArg Reply.result hreply)
  rw [hresults, hreply] at hstep
  have hcall : m.hostCall? p = some ⟨b, m.context, m.memory, arguments.map UInt32.toInt32⟩ := by
    simp only [hostCall?, hcode, hb, harguments]
  have hstretch := leadsTo_of_next hstep
  rw [hcall] at hstretch
  exact hstretch

/-- A host function that refuses ends the run. -/
lemma endsIn_of_refused {b : Binding} {k : Nat} {arguments : List UInt32} {context : Context}
    {memory : Memory} {e : HostError} (hcode : m.frame.code = .call k :: rest)
    (hb : p.callee? k = some (.host b))
    (harguments : takeArguments b.signature.params m.frame.stack = (arguments, below))
    (hreply : m.replyOf b arguments = ⟨context, memory, .error e⟩) :
    ∃ fuel, EndsIn p m [⟨b, m.context, m.memory, arguments.map UInt32.toInt32⟩]
      ⟨fuel, memory, context, .refused e⟩ := by
  have hcall : m.hostCall? p = some ⟨b, m.context, m.memory, arguments.map UInt32.toInt32⟩ := by
    simp only [hostCall?, hcode, hb, harguments]
  have hreply' : HostCall.reply ⟨b, m.context, m.memory, arguments.map UInt32.toInt32⟩ =
      ⟨context, memory, .error e⟩ := hreply
  obtain ⟨fuel, hstep⟩ := step_of_refused hcall (congrArg Reply.result hreply')
  rw [hreply'] at hstep
  have hend := endsIn_of_halt hstep
  rw [hcall] at hend
  exact ⟨fuel, hend⟩

end Machine

/-! ## Calls of exported functions -/

/-- What a caller is told of the end of a call. -/
def Halt.answer (halt : Halt) : Except SandboxError Unit :=
  match halt.stop.error? with
  | some e => .error e
  | none => .ok ()

namespace Instance

variable {i : Instance} {name : String} {index : Nat} {f : Function} {calls : List HostCall}
  {halt : Halt}

/-- With fuel, a call of a function of the guest is a run of it. -/
lemma call_of_endsIn (hindex : i.module.exportedFunction? name = some index)
    (htype : functionType i.module index = .function entrySignature)
    (hf : i.program.callee? index = some (.guest f)) (hfuel : i.budget.fuel ≠ 0)
    (h : Machine.EndsIn i.program (Program.machine f i.budget.fuel i.memory i.context) calls
      halt) :
    i.call name = (halt.answer, i.absorb halt) ∧ i.hostCalls name = calls := by
  have hrun : i.program.runExport index i.budget.fuel i.memory i.context = halt := by
    simp only [Program.runExport, hf, Program.runGuest, if_neg hfuel]
    exact h.run_eq
  refine ⟨call_of_runExport hindex htype hrun, ?_⟩
  simp only [hostCalls_of_exported hindex htype, Program.exportCalls, hf, if_neg hfuel]
  exact h.hostCalls_eq

/-- Without fuel, a function of the guest is not entered. -/
lemma call_of_fuel_eq_zero (hindex : i.module.exportedFunction? name = some index)
    (htype : functionType i.module index = .function entrySignature)
    (hf : i.program.callee? index = some (.guest f)) (hfuel : i.budget.fuel = 0) :
    i.call name = (.error .fuelExhausted, i.absorb ⟨0, i.memory, i.context, .fuelExhausted⟩) ∧
      i.hostCalls name = [] := by
  have hrun : i.program.runExport index i.budget.fuel i.memory i.context =
      ⟨0, i.memory, i.context, .fuelExhausted⟩ := by
    simp only [Program.runExport, hf, Program.runGuest, hfuel, if_true]
  refine ⟨call_of_runExport hindex htype hrun, ?_⟩
  simp only [hostCalls_of_exported hindex htype, Program.exportCalls, hf, if_pos hfuel]

end Instance

end ContractHost.Wasm
