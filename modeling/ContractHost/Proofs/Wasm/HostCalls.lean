import Mathlib.Data.List.Forall2
import ContractHost.Proofs.Bridge.History
import ContractHost.Wasm.Instance

/-!
# The host calls of a guest

A guest that runs has its context changed by the host functions that it calls, and by nothing else.
The calls are read off the machine as it runs (`Machine.hostCalls`), and each of them is given the
context that the one before left (`Machine.threads_hostCalls`, `Instance.threads_hostCalls`).  If
all that the calls do to the log is to add records, as the functions of the bridge do
(`Bridge.HostFunction.onlyAdds_binding`), then what is in the log at the end is what they added, in
order (`HostCall.Threads.log_eq`).

The last section has a guest whose memory grows with every call, and which tells its host so; what
it does is worked out step by step, for any number of pages.
-/

namespace ContractHost

/-! ## Functions that only add records -/

/-- All that the function ever does to the log is to add records at its end. -/
def Binding.OnlyAdds (b : Binding) : Prop :=
  ∀ context memory arguments, ∃ records : List Record,
    (b.handler.run context memory arguments).context.log = records.foldl Log.push context.log

/-- The functions of the bridge only add records. -/
theorem Bridge.HostFunction.onlyAdds_binding (f : HostFunction) : f.binding.OnlyAdds := by
  intro context memory arguments
  obtain ⟨records, hemits⟩ := f.exists_emits context memory arguments
  exact ⟨records, hemits.log_eq⟩

namespace Wasm

variable {p : Program} {m m' : Machine}

/-! ## Calls of host functions -/

/-- A call of a host function, with the context and the memory that the function is given. -/
structure HostCall where
  binding : Binding
  context : Context
  memory : Memory
  arguments : List Int32

namespace HostCall

variable {call : HostCall} {calls : List HostCall} {c c' c'' : Context}

/-- What the function leaves behind, and its answer. -/
def reply (call : HostCall) : Reply :=
  call.binding.handler.run call.context call.memory call.arguments

/-- All that the call does to the log is to add the records at its end. -/
def Adds (call : HostCall) (records : List Record) : Prop :=
  call.reply.context.log = records.foldl Log.push call.context.log

/-- The calls lead from one context to another: each is given the context that the one before
left. -/
inductive Threads : Context → List HostCall → Context → Prop
  | nil (c : Context) : Threads c [] c
  | cons {call : HostCall} {calls : List HostCall} {c : Context}
    (h : Threads call.reply.context calls c) : Threads call.context (call :: calls) c

/-- Calls can be followed by others. -/
lemma Threads.append {more : List HostCall} (h : Threads c calls c') (h' : Threads c' more c'') :
    Threads c (calls ++ more) c'' := by
  induction h with
  | nil c => exact h'
  | cons _ ih => exact .cons (ih h')

/-- If calls only add records, the log holds what they added behind what it held. -/
lemma Threads.log_eq {added : List (List Record)} (h : Threads c calls c')
    (hadded : List.Forall₂ Adds calls added) : c'.log = added.flatten.foldl Log.push c.log := by
  induction h generalizing added with
  | nil c =>
    cases hadded
    rfl
  | cons _ ih =>
    cases hadded with
    | cons hfirst hrest => rw [ih hrest, hfirst, List.flatten_cons, List.foldl_append]

/-- If there are such records for each call, there are some for all of them in turn. -/
lemma exists_forall₂ {R : HostCall → List Record → Prop}
    (h : ∀ call ∈ calls, ∃ records, R call records) : ∃ each, List.Forall₂ R calls each := by
  induction calls with
  | nil => exact ⟨[], .nil⟩
  | cons call calls ih =>
    obtain ⟨⟨records, hrecords⟩, hrest⟩ := List.forall_mem_cons.1 h
    obtain ⟨each, heach⟩ := ih hrest
    exact ⟨records :: each, .cons hrecords heach⟩

end HostCall

/-- A host function that has an index is one of the imports. -/
lemma Program.mem_imports_of_callee? {index : Nat} {b : Binding}
    (h : p.callee? index = some (.host b)) : b ∈ p.imports := by
  unfold callee? at h
  split at h
  · obtain ⟨_, hb, hsame⟩ := Option.map_eq_some_iff.1 h
    cases hsame
    exact Array.mem_of_getElem? hb
  · obtain ⟨_, _, hother⟩ := Option.map_eq_some_iff.1 h
    cases hother

/-! ## One step -/

/-- The context after a step. -/
def Step.context : Step → Context
  | .next m => m.context
  | .halt h => h.context

namespace Machine

/-- The call of a host function that the next step makes, if it makes one. -/
def hostCall? (p : Program) (m : Machine) : Option HostCall :=
  match m.frame.code with
  | .call index :: _ =>
    match p.callee? index with
    | some (.host b) =>
      let arguments := (takeArguments b.signature.params m.frame.stack).1
      some ⟨b, m.context, m.memory, arguments.map UInt32.toInt32⟩
    | _ => none
  | _ => none

/-- The function that the next step calls is one of the imports. -/
lemma mem_imports_of_hostCall? {call : HostCall} (h : m.hostCall? p = some call) :
    call.binding ∈ p.imports := by
  unfold hostCall? at h
  split at h
  · split at h
    next b hb =>
      cases h
      exact Program.mem_imports_of_callee? hb
    next => cases h
  · cases h

/-- Leaving a function keeps the context. -/
lemma context_leaveFunction (m : Machine) : m.leaveFunction.context = m.context := by
  unfold leaveFunction
  split <;> rfl

/-- Starting a loop keeps the context. -/
lemma context_enterLoop (m : Machine) (body : List Instr) (label : Label) (outer : List Label) :
    (m.enterLoop body label outer).context = m.context := by
  unfold enterLoop
  split <;> rfl

/-- A branch keeps the context. -/
lemma context_branchTo (m : Machine) (depth : Nat) : (m.branchTo depth).context = m.context := by
  unfold branchTo
  split
  · exact context_leaveFunction m
  · split
    · rfl
    · exact context_enterLoop _ _ _ _

/-- Entering a function of the guest keeps the context. -/
lemma context_enterFunction (m : Machine) (f : Function) (arguments : List UInt32)
    (rest : List Instr) (stack : List UInt32) :
    (m.enterFunction f arguments rest stack).context = m.context := by
  unfold enterFunction
  split <;> rfl

/-- Growing the memory keeps the context. -/
lemma context_growMemory (m : Machine) (rest : List Instr) :
    (m.growMemory p rest).context = m.context := by
  unfold growMemory
  dsimp only
  split <;> rfl

/-- Reading the memory keeps the context. -/
lemma context_fetch (m : Machine) (rest : List Instr) (read : Memory → UInt32 → Option UInt32) :
    (m.fetch rest read).context = m.context := by
  unfold fetch
  split <;> rfl

/-- Writing to the memory keeps the context. -/
lemma context_put (m : Machine) (rest : List Instr) (form : UInt32 → ByteArray) :
    (m.put rest form).context = m.context := by
  unfold put
  dsimp only
  split <;> rfl

/-- A call of a host function leaves the context that the function left. -/
lemma context_callHost (m : Machine) (b : Binding) (rest : List Instr) :
    (m.callHost b rest).context = (b.handler.run m.context m.memory
      ((takeArguments b.signature.params m.frame.stack).1.map UInt32.toInt32)).context := by
  unfold callHost
  dsimp only
  split
  · rfl
  · split <;> rfl

/-- An instruction other than a call keeps the context. -/
lemma context_exec {i : Instr} (h : ∀ index, i ≠ .call index) (rest : List Instr) :
    (exec p m rest i).context = m.context := by
  cases i with
  | call index => exact absurd rfl (h index)
  | binary op =>
    rw [exec]
    split <;> rfl
  | load => exact context_fetch _ _ _
  | loadByte => exact context_fetch _ _ _
  | store => exact context_put _ _ _
  | storeByte => exact context_put _ _ _
  | memoryGrow => exact context_growMemory _ _
  | loop body => exact context_enterLoop _ _ _ _
  | br depth => exact context_branchTo _ _
  | brIf depth =>
    rw [exec]
    split
    · exact context_branchTo _ _
    · rfl
  | ret => exact context_leaveFunction m
  | _ => rfl

/-- A step keeps the context, or it makes a call and leaves the context that this left. -/
lemma threads_step (p : Program) (m : Machine) :
    HostCall.Threads m.context (m.hostCall? p).toList (m.step p).context := by
  -- A step without a call, whatever it leaves as the context.
  have hkept : ∀ c, c = m.context → HostCall.Threads m.context [] c := by
    rintro c rfl
    exact .nil _
  unfold hostCall? step
  split
  next index rest hcode =>
    rw [hcode]
    simp only [exec, callIndex]
    split
    next b hb =>
      rw [hb]
      dsimp only
      rw [context_callHost]
      exact @HostCall.Threads.cons ⟨b, m.context, m.memory, _⟩ [] _ (.nil _)
    next hnone =>
      refine hkept _ ?_
      split
      next => rfl
      next b hb => exact absurd hb (hnone b)
      next => exact context_enterFunction _ _ _ _ _
  next hnone =>
    refine hkept _ ?_
    split
    next i rest hcode =>
      refine context_exec (fun index hi => ?_) rest
      rw [hi] at hcode
      exact hnone index rest hcode
    next =>
      split
      · rfl
      · exact context_leaveFunction m

/-! ## Whole runs -/

/-- The calls of host functions that a machine makes until it ends, in order. -/
def hostCalls (p : Program) (m : Machine) : List HostCall :=
  (m.hostCall? p).toList ++
    match _h : m.step p with
    | .halt _ => []
    | .next m' => hostCalls p m'
termination_by (m.fuel, m.weight)
decreasing_by
  rcases lighter_of_step _h with h | ⟨h, hw⟩
  · exact Prod.Lex.left _ _ h
  · rw [h]
    exact Prod.Lex.right _ hw

/-- A run is over with a step that halts. -/
lemma run_of_halt {h : Halt} (hstep : m.step p = .halt h) : m.run p = h := by
  rw [run]
  split
  next hh => exact Step.halt.inj (hh.symm.trans hstep)
  next hm => cases hm.symm.trans hstep

/-- A run goes on from the machine that a step leaves. -/
lemma run_of_next (hstep : m.step p = .next m') : m.run p = m'.run p := by
  rw [run]
  split
  next hh => cases hh.symm.trans hstep
  next hm => rw [Step.next.inj (hm.symm.trans hstep)]

/-- With a step that halts only the call is made that this step makes. -/
lemma hostCalls_of_halt {h : Halt} (hstep : m.step p = .halt h) :
    m.hostCalls p = (m.hostCall? p).toList := by
  rw [hostCalls]
  split
  next => rw [List.append_nil]
  next hm => cases hm.symm.trans hstep

/-- The call that a step makes comes before those of the machine that it leaves. -/
lemma hostCalls_of_next (hstep : m.step p = .next m') :
    m.hostCalls p = (m.hostCall? p).toList ++ m'.hostCalls p := by
  rw [hostCalls]
  split
  next hh => cases hh.symm.trans hstep
  next hm => rw [Step.next.inj (hm.symm.trans hstep)]

/-- The calls that a machine makes lead from its context to the one that it ends with. -/
theorem threads_hostCalls (p : Program) (m : Machine) :
    HostCall.Threads m.context (m.hostCalls p) (m.run p).context := by
  induction m using run.induct p with
  | case1 m h hstep =>
    have hcall := threads_step p m
    rw [hstep] at hcall
    rw [run_of_halt hstep, hostCalls_of_halt hstep]
    exact hcall
  | case2 m m' hstep ih =>
    have hcall := threads_step p m
    rw [hstep] at hcall
    rw [run_of_next hstep, hostCalls_of_next hstep]
    exact hcall.append ih

/-- The functions that a machine calls are imports. -/
lemma mem_imports_of_mem_hostCalls (p : Program) (m : Machine) :
    ∀ call ∈ m.hostCalls p, call.binding ∈ p.imports := by
  induction m using run.induct p with
  | case1 m h hstep =>
    intro call hcall
    rw [hostCalls_of_halt hstep, Option.mem_toList] at hcall
    exact mem_imports_of_hostCall? hcall
  | case2 m m' hstep ih =>
    intro call hcall
    rw [hostCalls_of_next hstep, List.mem_append, Option.mem_toList] at hcall
    rcases hcall with hcall | hcall
    · exact mem_imports_of_hostCall? hcall
    · exact ih call hcall

end Machine

/-! ## Calls of exported functions -/

namespace Program

/-- The calls of host functions that running an exported function makes.  A host function that is
called without a guest in between is one itself. -/
def exportCalls (p : Program) (index fuel : Nat) (memory : Memory) (context : Context) :
    List HostCall :=
  match p.callee? index with
  | none => []
  | some (.host b) => [⟨b, context, .empty, []⟩]
  | some (.guest f) => if fuel = 0 then [] else (machine f fuel memory context).hostCalls p

/-- The calls that running an exported function makes lead from the context that it is given to the
one that it leaves. -/
lemma threads_exportCalls (p : Program) (index fuel : Nat) (memory : Memory) (context : Context) :
    HostCall.Threads context (p.exportCalls index fuel memory context)
      (p.runExport index fuel memory context).context := by
  unfold exportCalls runExport
  rcases p.callee? index with _ | b | f
  · exact .nil context
  · exact @HostCall.Threads.cons ⟨b, context, .empty, []⟩ [] _ (.nil _)
  · dsimp only
    unfold runGuest
    by_cases hfuel : fuel = 0
    · rw [if_pos hfuel, if_pos hfuel]
      exact .nil context
    · rw [if_neg hfuel, if_neg hfuel]
      exact Machine.threads_hostCalls p (machine f fuel memory context)

/-- The functions that are called in running an exported function are imports. -/
lemma mem_imports_of_mem_exportCalls (p : Program) (index fuel : Nat) (memory : Memory)
    (context : Context) :
    ∀ call ∈ p.exportCalls index fuel memory context, call.binding ∈ p.imports := by
  intro call hcall
  unfold exportCalls at hcall
  split at hcall
  · cases hcall
  next b hb =>
    rw [List.mem_singleton] at hcall
    subst hcall
    exact mem_imports_of_callee? hb
  next f _ =>
    split at hcall
    · cases hcall
    · exact Machine.mem_imports_of_mem_hostCalls p _ call hcall

end Program

namespace Instance

/-- The calls of host functions that a call of an exported function makes. -/
def hostCalls (i : Instance) (name : String) : List HostCall :=
  match i.module.exportedFunction? name with
  | none => []
  | some index =>
    if functionType i.module index = .function entrySignature then
      i.program.exportCalls index i.budget.fuel i.memory i.context
    else []

variable {i : Instance} {name : String} {index : Nat}

/-- A call of a function that can be an entry point is a run of it. -/
lemma call_of_runExport {halt : Halt} (hindex : i.module.exportedFunction? name = some index)
    (htype : functionType i.module index = .function entrySignature)
    (hrun : i.program.runExport index i.budget.fuel i.memory i.context = halt) :
    i.call name =
      (match halt.stop.error? with | some e => .error e | none => .ok (), i.absorb halt) := by
  simp only [call, hindex, if_pos htype, hrun]
  rfl

/-- In a call of a function that can be an entry point the calls of host functions are those of a
run of it. -/
lemma hostCalls_of_exported (hindex : i.module.exportedFunction? name = some index)
    (htype : functionType i.module index = .function entrySignature) :
    i.hostCalls name = i.program.exportCalls index i.budget.fuel i.memory i.context := by
  simp only [hostCalls, hindex, if_pos htype]

/-- The calls that a call of an exported function makes lead from the context of the instance to
the one that it is left with. -/
theorem threads_hostCalls (i : Instance) (name : String) :
    HostCall.Threads i.context (i.hostCalls name) (i.call name).2.context := by
  cases hexport : i.module.exportedFunction? name with
  | none =>
    simp only [hostCalls, call, hexport]
    exact .nil i.context
  | some index =>
    by_cases htype : functionType i.module index = .function entrySignature
    · rw [hostCalls_of_exported hexport htype, call_of_runExport hexport htype rfl]
      exact i.program.threads_exportCalls index i.budget.fuel i.memory i.context
    · simp only [hostCalls, call, hexport, if_neg htype]
      exact .nil i.context

/-- The functions that are called in a call of an exported function are imports. -/
lemma mem_imports_of_mem_hostCalls (i : Instance) (name : String) :
    ∀ call ∈ i.hostCalls name, call.binding ∈ i.program.imports := by
  intro call hcall
  unfold hostCalls at hcall
  split at hcall
  · cases hcall
  · split at hcall
    · exact i.program.mem_imports_of_mem_exportCalls _ _ _ _ call hcall
    · cases hcall

/-- If the imports of the instance only add records, each of its host calls adds some. -/
lemma exists_forall₂_adds_hostCalls (i : Instance) (name : String)
    (h : ∀ b ∈ i.program.imports, b.OnlyAdds) :
    ∃ added, List.Forall₂ HostCall.Adds (i.hostCalls name) added :=
  HostCall.exists_forall₂ fun call hcall =>
    h _ (i.mem_imports_of_mem_hostCalls name call hcall) call.context call.memory call.arguments

end Instance

end Wasm

/-! ## A guest that grows -/

namespace Memory

/-- Zeros behind zeros are zeros. -/
lemma grow_zeros (n k : Nat) : (zeros n).grow k = zeros (n + k) := by
  unfold grow zeros
  simp only [zeroBytes_eq]
  congr 1
  apply ByteArray.ext
  rw [ByteArray.data_append, Array.replicate_append_replicate]

/-- A memory of zeros has as many pages as it was made of. -/
lemma pages_zeros (k : Nat) : (zeros (k * pageSize)).pages = k := by
  rw [pages, capacity, zeros, size_zeroBytes]
  exact Nat.mul_div_cancel k (by decide)

end Memory

namespace Wasm

/-- The function of a text is made of the instructions that the lines stand for, if they are well
typed. -/
lemma Description.compileFunction_of_assemble {d : Description} {text : FunctionText}
    {body : List Instr} (hbody : assemble text.body = some body)
    (htyped : isWellTyped (d.scope text) body = true) : d.compileFunction text =
      some ⟨text.type.params.length, text.type.results.length, text.locals.length, body⟩ := by
  rw [compileFunction, hbody]
  exact if_pos htyped

/-- The module of a valid description is made of the functions of its texts, if it exports its
memory. -/
lemma Module.ofSource_eq_ok {d : Description} {fs : List Function} (hvalid : d.isValid = true)
    (hfunctions : d.functions.mapM d.compileFunction = some fs)
    (hmemory : (⟨d, fs.toArray⟩ : Module).exportsMemory = true) :
    ofSource (.description d) = .ok ⟨d, fs.toArray⟩ := by
  have hcompile : d.compile = some ⟨d, fs.toArray⟩ := by
    rw [Description.compile, if_pos hvalid, hfunctions, Option.map_some]
  rw [ofSource, Source.description?, Option.bind_some, hcompile]
  exact if_pos hmemory

/-- The record of a number of pages. -/
def pagesRecord (pages : UInt32) : Record := .transaction "pages" ⟨#[pages.toUInt8]⟩

/-- The host function that records a number of pages. -/
def tell : Binding where
  space := "env"
  name := "tell"
  signature := ⟨1, 0⟩
  handler := .onContext fun c _ arguments =>
    match c.record "tell" (pagesRecord (arguments.headD 0).toUInt32) with
    | .error e => (c, .error e)
    | .ok c' => (c', .ok none)

/-- The text of a function that grows the memory by a page and tells how many pages there are. -/
def growText : FunctionText :=
  ⟨⟨[], []⟩, [], ["i32.const 1", "memory.grow", "drop", "memory.size", "call 0"]⟩

/-- The function of the text. -/
def grow : Function := ⟨0, 0, 0, [.const 1, .memoryGrow, .drop, .memorySize, .call 0]⟩

/-- The module that calls the function when it starts, and exports it as an entry point. -/
def growing : Module where
  description :=
    { Description.empty with
      imports := [⟨"env", "tell", .function ⟨[.i32], []⟩⟩]
      memories := [⟨0, none⟩]
      functions := [growText]
      exports := [⟨memoryExportName, .memory, 0⟩, ⟨"main", .function, 1⟩]
      start := some 1 }
  functions := #[grow]

/-- The lines of the text are the instructions of the function. -/
lemma assemble_growText : assemble growText.body = some grow.body := by
  simp +decide [assemble, growText, grow, Line.ofText, lineWords, String.splitOn, String.splitOnAux]
  rfl

/-- The module is made of its description. -/
lemma ofSource_growing : Module.ofSource (.description growing.description) = .ok growing := by
  have hfunction : growing.description.compileFunction growText = some grow :=
    Description.compileFunction_of_assemble assemble_growText (by decide +kernel)
  have hfunctions : growing.description.functions.mapM growing.description.compileFunction =
      some [grow] := by
    rw [show growing.description.functions = [growText] from rfl, List.mapM_cons, hfunction]
    rfl
  exact Module.ofSource_eq_ok (by decide +kernel) hfunctions rfl

/-- Fuel for ten instructions, and three pages. -/
def growingBudget : Budget := ⟨10, 3 * pageSize⟩

/-- The functions of the module, with the host function. -/
def growingProgram : Program := ⟨#[tell], #[grow], addressablePages, growingBudget.limiter⟩

variable {context context' : Context} {k : Nat} {w : UInt32}

/-- The function on its way: its fuel, the pages of the memory, the context, the code that is left
and the operands. -/
def growAt (fuel k : Nat) (context : Context) (code : List Instr) (stack : List UInt32) : Machine :=
  ⟨fuel, .zeros (k * pageSize), context, ⟨code, stack, [], #[], 0⟩, []⟩

/-- With room in the memory it is grown by a page. -/
lemma step_growAt_grow (context : Context) (hk : k < 3) :
    (growAt 8 k context [.memoryGrow, .drop, .memorySize, .call 0] [1]).step growingProgram =
      .next (growAt 7 (k + 1) context [.drop, .memorySize, .call 0] [UInt32.ofNat k]) := by
  have hone : UInt32.toNat 1 = 1 := rfl
  have hroom : growingProgram.mayGrow (k + 1) = true :=
    Program.mayGrow_iff.2 ⟨Nat.le_trans hk (by decide), Nat.mul_le_mul_right pageSize hk⟩
  simp only [growAt, Machine.step, Machine.exec, Machine.growMemory, Machine.burn, top,
    List.headD_cons, hone, Memory.pages_zeros, if_pos hroom, Nat.one_mul, Memory.grow_zeros,
    ← Nat.succ_mul]
  rfl

/-- The number of pages becomes an operand. -/
lemma step_growAt_size (context : Context) (k : Nat) :
    (growAt 7 k context [.memorySize, .call 0] []).step growingProgram =
      .next (growAt 6 k context [.call 0] [UInt32.ofNat k]) := by
  simp only [growAt, Machine.step, Machine.exec, Machine.burn, Memory.pages_zeros]
  rfl

/-- With room in the log the number that is told is recorded. -/
lemma step_tell {p : Program} (hp : p.callee? 0 = some (.host tell))
    (h : context.record "tell" (pagesRecord w) = .ok context') (fuel : Nat) (memory : Memory)
    (rest : List Instr) :
    (⟨fuel, memory, context, ⟨.call 0 :: rest, [w], [], #[], 0⟩, []⟩ : Machine).step p =
      .next ⟨fuel - 1, memory, context', ⟨rest, [], [], #[], 0⟩, []⟩ := by
  have harguments : takeArguments tell.signature.params [w] = ([w], []) := rfl
  have hrun : tell.handler.run context memory [w.toInt32] = ⟨context', memory, .ok none⟩ := by
    simp only [tell, Handler.onContext, List.headD_cons, UInt32.toUInt32_toInt32, h]
  simp only [Machine.step, Machine.exec, Machine.callIndex, Machine.burn, hp, Machine.callHost,
    harguments, List.map_cons, List.map_nil, hrun]
  rfl

/-- With room in the log the operand is recorded. -/
lemma step_growAt_call (k : Nat) (h : context.record "tell" (pagesRecord w) = .ok context') :
    (growAt 6 k context [.call 0] [w]).step growingProgram =
      .next (growAt 5 k context' [] []) := step_tell rfl h 6 (.zeros (k * pageSize)) []

/-- With room in the memory and in the log the function does both, and calls the host function
once. -/
lemma run_grow (hk : k < 3)
    (h : context.record "tell" (pagesRecord (UInt32.ofNat (k + 1))) = .ok context') :
    (Program.machine grow 10 (.zeros (k * pageSize)) context).run growingProgram =
        ⟨5, .zeros ((k + 1) * pageSize), context', .finished⟩ ∧
      (Program.machine grow 10 (.zeros (k * pageSize)) context).hostCalls growingProgram =
        [⟨tell, context, .zeros ((k + 1) * pageSize), [(UInt32.ofNat (k + 1)).toInt32]⟩] := by
  have hconst : (Program.machine grow 10 (.zeros (k * pageSize)) context).step growingProgram =
      .next (growAt 8 k context [.memoryGrow, .drop, .memorySize, .call 0] [1]) := rfl
  have hgrow := step_growAt_grow context hk
  have hdrop : (growAt 7 (k + 1) context [.drop, .memorySize, .call 0]
      [UInt32.ofNat k]).step growingProgram =
        .next (growAt 7 (k + 1) context [.memorySize, .call 0] []) := rfl
  have hsize := step_growAt_size context (k + 1)
  have hcall := step_growAt_call (k + 1) h
  have hend : (growAt 5 (k + 1) context' [] []).step growingProgram =
      .halt ⟨5, .zeros ((k + 1) * pageSize), context', .finished⟩ := rfl
  constructor
  · rw [Machine.run_of_next hconst, Machine.run_of_next hgrow, Machine.run_of_next hdrop,
      Machine.run_of_next hsize, Machine.run_of_next hcall, Machine.run_of_halt hend]
  · rw [Machine.hostCalls_of_next hconst, Machine.hostCalls_of_next hgrow,
      Machine.hostCalls_of_next hdrop, Machine.hostCalls_of_next hsize,
      Machine.hostCalls_of_next hcall, Machine.hostCalls_of_halt hend]
    rfl

/-- An instance of the module, with the pages of its memory. -/
def growingInstance (k : Nat) (context : Context) : Instance :=
  ⟨growing, growingProgram, growingBudget, 5, .zeros (k * pageSize), context⟩

/-- The context with the record of a number of pages in its log. -/
def pagesContext (reason : ByteArray) (pages : UInt32) : Context :=
  ⟨reason, .ofList [pagesRecord pages], .standard⟩

/-- An empty log has room for the record. -/
lemma record_pages (reason : ByteArray) (pages : UInt32) :
    (Context.new reason .standard).record "tell" (pagesRecord pages) =
      .ok (pagesContext reason pages) := rfl

/-- The instance that is made has grown already. -/
lemma new_growing (reason : ByteArray) :
    Instance.new growingBudget growing [tell] (.new reason .standard) =
      .ok (growingInstance 1 (pagesContext reason 1)) := by
  have hprepare : Instance.prepare growingBudget growing [tell] (.new reason .standard) =
      .ok { growingInstance 0 (.new reason .standard) with fuel := 10 } := by
    have himports : Instance.resolveImports growing [tell] = .ok [tell] := rfl
    have hmemory : Instance.newMemory growing growingBudget = .ok (.zeros (0 * pageSize)) :=
      Instance.newMemory_of_le (by decide)
    have hprogram : Instance.programOf growing growingBudget [tell] = growingProgram := rfl
    simp only [Instance.prepare, himports, hmemory, hprogram, bind, Except.bind]
    rfl
  have hrun : growingProgram.runStart 1 10 (.zeros (0 * pageSize)) (.new reason .standard) =
      ⟨5, .zeros (1 * pageSize), pagesContext reason 1, .finished⟩ :=
    (run_grow (by decide) (record_pages reason 1)).1
  have hstart : Instance.start { growingInstance 0 (.new reason .standard) with fuel := 10 } =
      .ok (growingInstance 1 (pagesContext reason 1)) := by
    simp only [Instance.start, growingInstance, growing, hrun]
    rfl
  simp only [Instance.new, hprepare, bind, Except.bind, hstart]
  rfl

/-- The entry point is the function. -/
lemma exportedFunction?_growing : growing.exportedFunction? "main" = some 1 := rfl

/-- The function can be an entry point. -/
lemma functionType_growing : Instance.functionType growing 1 = .function entrySignature := rfl

/-- A call grows the memory by one more page. -/
lemma call_growing (reason : ByteArray) (hk : k < 3) :
    (growingInstance k (.new reason .standard)).call "main" =
      (.ok (), growingInstance (k + 1) (pagesContext reason (UInt32.ofNat (k + 1)))) := by
  have hrun : growingProgram.runExport 1 10 (.zeros (k * pageSize)) (.new reason .standard) =
      ⟨5, .zeros ((k + 1) * pageSize), pagesContext reason (UInt32.ofNat (k + 1)), .finished⟩ :=
    (run_grow hk (record_pages reason (UInt32.ofNat (k + 1)))).1
  exact Instance.call_of_runExport (i := growingInstance k (.new reason .standard))
    exportedFunction?_growing functionType_growing hrun

/-- The module calls the host function once in a call, with the memory that has grown. -/
lemma hostCalls_growing (reason : ByteArray) (hk : k < 3) :
    (growingInstance k (.new reason .standard)).hostCalls "main" =
      [⟨tell, .new reason .standard, .zeros ((k + 1) * pageSize),
        [(UInt32.ofNat (k + 1)).toInt32]⟩] := by
  have hcalls : growingProgram.exportCalls 1 10 (.zeros (k * pageSize)) (.new reason .standard) =
      [⟨tell, .new reason .standard, .zeros ((k + 1) * pageSize),
        [(UInt32.ofNat (k + 1)).toInt32]⟩] :=
    (run_grow hk (record_pages reason (UInt32.ofNat (k + 1)))).2
  exact (Instance.hostCalls_of_exported (i := growingInstance k (.new reason .standard))
    exportedFunction?_growing functionType_growing).trans hcalls

end Wasm

end ContractHost
