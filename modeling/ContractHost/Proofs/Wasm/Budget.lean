import ContractHost.Proofs.Driver.FailedCall
import ContractHost.Proofs.Log.Fitting

/-!
# Larger budgets

A call is cut off if it ends for want of fuel, or because a record does not fit the limits of the
log.  A call that is not cut off comes to the same under any larger budget: more fuel does not
change what a step does, and larger limits do not change what a host function does that heeds them
(`Binding.HeedsLimits`), as those of the bridge do.  The step, the run and the call follow in this
order (`Machine.step_raised`, `Machine.run_raised`, `Instance.call_raised`).

How much fuel was left by earlier calls does not matter: a call starts with all of it.
-/

namespace ContractHost

/-! ## Limits -/

/-- The error says that a record does not fit the limits of the log. -/
def HostError.IsLogLimit : HostError → Prop
  | recordLimit _ _ => True
  | byteLimit _ _ => True
  | _ => False

/-- A record that fits does so under larger limits. -/
lemma Log.fits_raised {log : Log} {limits limits' : LogLimits} (h : limits ≤ limits') {r : Record}
    (hfits : log.fits limits r.size = true) : log.fits limits' r.size = true := by
  rw [fits_iff_hasRoom] at hfits ⊢
  exact hfits.raised h

/-- The context under other limits. -/
def Context.raised (c : Context) (limits : LogLimits) : Context := { c with limits := limits }

/-- The reply with its context under other limits. -/
def Reply.raised (reply : Reply) (limits : LogLimits) : Reply :=
  { reply with context := reply.context.raised limits }

/-- The reply refuses a record that does not fit the limits. -/
def Reply.IsCutOff (reply : Reply) : Prop := ∃ e, reply.result = .error e ∧ e.IsLogLimit

/-- A record is refused for the limits, or it is added, and then it is added under all larger limits
as well. -/
lemma Context.record_raised {c : Context} {limits : LogLimits} (h : c.limits ≤ limits)
    (function : String) (r : Record) :
    (∃ e, c.record function r = .error e ∧ e.IsLogLimit) ∨
      ∃ c', c.record function r = .ok c' ∧ c'.limits = c.limits ∧
        (c.raised limits).record function r = .ok (c'.raised limits) := by
  cases hrecord : c.record function r with
  | ok c' =>
    obtain ⟨hfits, rfl⟩ := record_eq_ok_iff.1 hrecord
    exact Or.inr ⟨_, rfl, rfl, record_eq_ok_iff.2 ⟨Log.fits_raised h hfits, rfl⟩⟩
  | error e =>
    refine Or.inl ⟨e, rfl, ?_⟩
    obtain ⟨_, rfl | rfl⟩ := record_eq_error hrecord
    · trivial
    · trivial

/-- The function looks at the limits of the log only to refuse a record that does not fit.  Under
larger limits it does the same, unless it refused. -/
def Binding.HeedsLimits (b : Binding) : Prop :=
  ∀ context memory arguments limits, context.limits ≤ limits →
    (b.handler.run context memory arguments).IsCutOff ∨
      ((b.handler.run context memory arguments).context.limits = context.limits ∧
        b.handler.run (context.raised limits) memory arguments =
          (b.handler.run context memory arguments).raised limits)

namespace Bridge

/-- Recording heeds the limits. -/
lemma emit_raised {context : Context} {limits : LogLimits} (h : context.limits ≤ limits)
    (function : String) (memory : Memory) (made : Except HostError Record) :
    (emit function context memory made).IsCutOff ∨
      ((emit function context memory made).context.limits = context.limits ∧
        emit function (context.raised limits) memory made =
          (emit function context memory made).raised limits) := by
  cases made with
  | error e => exact Or.inr ⟨rfl, rfl⟩
  | ok record =>
    rcases context.record_raised h function record with ⟨e, he, hlimit⟩ | ⟨c', hc', hsame, hraised⟩
    · refine Or.inl ⟨e, ?_, hlimit⟩
      simp only [emit, he]
      rfl
    · refine Or.inr ⟨?_, ?_⟩
      · simp only [emit, hc']
        exact hsame
      · simp only [emit, hc', hraised]
        rfl

/-- The functions of the bridge heed the limits. -/
lemma HostFunction.heedsLimits_binding (f : HostFunction) : f.binding.HeedsLimits := by
  intro context memory arguments limits h
  cases f with
  | reasonLen =>
    refine Or.inr ?_
    cases arguments with
    | nil => exact ⟨rfl, rfl⟩
    | cons _ _ => exact ⟨rfl, rfl⟩
  | reason =>
    refine Or.inr ?_
    rcases arguments with _ | ⟨destination, _ | ⟨_, _⟩⟩
    · exact ⟨rfl, rfl⟩
    · change (Bridge.reason context memory [destination]).context.limits = context.limits ∧
        Bridge.reason (context.raised limits) memory [destination] =
          (Bridge.reason context memory [destination]).raised limits
      have hreason : (context.raised limits).reason = context.reason := rfl
      simp only [Bridge.reason, hreason]
      cases memory.write destination context.reason with
      | ok memory' => exact ⟨rfl, rfl⟩
      | error e => exact ⟨rfl, rfl⟩
    · exact ⟨rfl, rfl⟩
  | sendTransaction =>
    rcases arguments with _ | ⟨tagAt, _ | ⟨tagLength, _ | ⟨payloadAt, _ |
      ⟨payloadLength, _ | ⟨_, _⟩⟩⟩⟩⟩
    · exact Or.inr ⟨rfl, rfl⟩
    · exact Or.inr ⟨rfl, rfl⟩
    · exact Or.inr ⟨rfl, rfl⟩
    · exact Or.inr ⟨rfl, rfl⟩
    · exact emit_raised h _ memory _
    · exact Or.inr ⟨rfl, rfl⟩
  | error =>
    rcases arguments with _ | ⟨messageAt, _ | ⟨messageLength, _ | ⟨_, _⟩⟩⟩
    · exact Or.inr ⟨rfl, rfl⟩
    · exact Or.inr ⟨rfl, rfl⟩
    · exact emit_raised h _ memory _
    · exact Or.inr ⟨rfl, rfl⟩

end Bridge

namespace Wasm

/-! ## Steps -/

/-- What is left of a call, with other fuel and under other limits. -/
def Halt.raised (h : Halt) (fuel : Nat) (limits : LogLimits) : Halt :=
  { h with fuel := fuel, context := h.context.raised limits }

/-- The call ended for want of fuel, or a record did not fit the limits. -/
def Stop.IsCutOff : Stop → Prop
  | fuelExhausted => True
  | refused e => e.IsLogLimit
  | _ => False

namespace Machine

variable {p : Program} {m m' : Machine} {fuel : Nat} {limits : LogLimits} {rest : List Instr}

/-- The machine with other fuel and under other limits. -/
def raised (m : Machine) (fuel : Nat) (limits : LogLimits) : Machine :=
  { m with fuel := fuel, context := m.context.raised limits }

/-- What a step comes to, and what it comes to with more fuel and under larger limits: the same,
unless it cuts the call off. -/
inductive Lasts (limits₀ limits : LogLimits) : Step → Step → Prop
  | next {m : Machine} {fuel : Nat} (hfuel : m.fuel ≤ fuel) (hlimits : m.context.limits = limits₀) :
    Lasts limits₀ limits (.next m) (.next (m.raised fuel limits))
  | halt {h : Halt} (fuel : Nat) : Lasts limits₀ limits (.halt h) (.halt (h.raised fuel limits))
  | cutOff {h : Halt} {s : Step} (hstop : h.stop.IsCutOff) : Lasts limits₀ limits (.halt h) s

section

variable {limits₀ : LogLimits} (hfuel : m.fuel ≤ fuel) (hlimits : m.context.limits = limits₀)

include hfuel hlimits

/-- Going on with other code and operands. -/
lemma lasts_proceed (code : List Instr) (stack : List UInt32) :
    Lasts limits₀ limits (m.proceed code stack) ((m.raised fuel limits).proceed code stack) :=
  .next hfuel hlimits

/-- Leaving a function. -/
lemma lasts_leaveFunction :
    Lasts limits₀ limits m.leaveFunction (m.raised fuel limits).leaveFunction := by
  have hcallers : (m.raised fuel limits).callers = m.callers := rfl
  unfold leaveFunction
  rw [hcallers]
  cases m.callers with
  | nil => exact .halt fuel
  | cons caller callers => exact .next hfuel hlimits

/-- Starting a loop.  If there is fuel for it, there is with more. -/
lemma lasts_enterLoop (body : List Instr) (label : Label) (outer : List Label) :
    Lasts limits₀ limits (m.enterLoop body label outer)
      ((m.raised fuel limits).enterLoop body label outer) := by
  unfold enterLoop
  by_cases hzero : m.fuel = 0
  · rw [if_pos hzero]
    exact .cutOff trivial
  · have hsome : ¬(m.raised fuel limits).fuel = 0 := by
      have hraised : (m.raised fuel limits).fuel = fuel := rfl
      omega
    rw [if_neg hzero, if_neg hsome]
    exact .next hfuel hlimits

/-- Branching. -/
lemma lasts_branchTo (depth : Nat) :
    Lasts limits₀ limits (m.branchTo depth) ((m.raised fuel limits).branchTo depth) := by
  have hlabels : (m.raised fuel limits).frame.labels = m.frame.labels := rfl
  unfold branchTo
  rw [hlabels]
  cases m.frame.labels.drop depth with
  | nil => exact lasts_leaveFunction hfuel hlimits
  | cons label outer =>
    dsimp only
    cases label.again with
    | none => exact .next hfuel hlimits
    | some body => exact lasts_enterLoop hfuel hlimits body label outer

/-- Entering a function of the guest.  If there is fuel for it, there is with more. -/
lemma lasts_enterFunction (f : Function) (arguments : List UInt32) (rest : List Instr)
    (stack : List UInt32) :
    Lasts limits₀ limits (m.enterFunction f arguments rest stack)
      ((m.raised fuel limits).enterFunction f arguments rest stack) := by
  unfold enterFunction
  by_cases hzero : m.fuel = 0
  · rw [if_pos hzero]
    exact .cutOff trivial
  · have hsome : ¬(m.raised fuel limits).fuel = 0 := by
      have hraised : (m.raised fuel limits).fuel = fuel := rfl
      omega
    rw [if_neg hzero, if_neg hsome]
    exact .next (Nat.sub_le_sub_right hfuel 1) hlimits

/-- Calling a host function that heeds the limits. -/
lemma lasts_callHost {b : Binding} (hb : b.HeedsLimits) (hle : limits₀ ≤ limits)
    (rest : List Instr) :
    Lasts limits₀ limits (m.callHost b rest) ((m.raised fuel limits).callHost b rest) := by
  have hstack : (m.raised fuel limits).frame.stack = m.frame.stack := rfl
  have hmemory : (m.raised fuel limits).memory = m.memory := rfl
  have hcontext : (m.raised fuel limits).context = m.context.raised limits := rfl
  unfold callHost
  dsimp only
  rw [hstack, hmemory, hcontext]
  generalize (takeArguments b.signature.params m.frame.stack).1.map UInt32.toInt32 = arguments
  rcases hb m.context m.memory arguments limits (hlimits ▸ hle) with
    ⟨e, he, hlimit⟩ | ⟨hsame, hraised⟩
  · rw [he]
    exact .cutOff hlimit
  · have hlimits' := hsame.trans hlimits
    rw [hraised]
    generalize b.handler.run m.context m.memory arguments = reply at hlimits'
    have hresult : (reply.raised limits).result = reply.result := rfl
    rw [hresult]
    cases reply.result with
    | error e => exact .halt fuel
    | ok answer =>
      dsimp only
      cases resultsOf b.signature.results answer with
      | none => exact .halt fuel
      | some results => exact .next hfuel hlimits'

/-- Reading the memory. -/
lemma lasts_fetch (rest : List Instr) (read : Memory → UInt32 → Option UInt32) :
    Lasts limits₀ limits (m.fetch rest read) ((m.raised fuel limits).fetch rest read) := by
  have hread : read (m.raised fuel limits).memory (top (m.raised fuel limits).frame.stack) =
      read m.memory (top m.frame.stack) := rfl
  unfold fetch
  rw [hread]
  cases read m.memory (top m.frame.stack) with
  | none => exact .halt fuel
  | some w => exact .next hfuel hlimits

/-- Writing to the memory. -/
lemma lasts_put (rest : List Instr) (form : UInt32 → ByteArray) :
    Lasts limits₀ limits (m.put rest form) ((m.raised fuel limits).put rest form) := by
  have hstack : (m.raised fuel limits).frame.stack = m.frame.stack := rfl
  have hmemory : (m.raised fuel limits).memory = m.memory := rfl
  unfold put
  dsimp only
  rw [hstack, hmemory]
  split
  · exact .next hfuel hlimits
  · exact .halt fuel

/-- Growing the memory, or being told that it does not grow. -/
lemma lasts_growMemory (rest : List Instr) :
    Lasts limits₀ limits (m.growMemory p rest) ((m.raised fuel limits).growMemory p rest) := by
  have hstack : (m.raised fuel limits).frame.stack = m.frame.stack := rfl
  have hmemory : (m.raised fuel limits).memory = m.memory := rfl
  unfold growMemory
  dsimp only
  rw [hstack, hmemory]
  split
  · exact .next hfuel hlimits
  · exact .next hfuel hlimits

/-- Doing an instruction, if all imports heed the limits. -/
lemma lasts_exec (hp : ∀ b ∈ p.imports, b.HeedsLimits) (hle : limits₀ ≤ limits)
    (rest : List Instr) (i : Instr) :
    Lasts limits₀ limits (exec p m rest i) (exec p (m.raised fuel limits) rest i) := by
  have hburnt : m.burn.fuel ≤ fuel - 1 := Nat.sub_le_sub_right hfuel 1
  have hburn : (m.raised fuel limits).burn = m.burn.raised (fuel - 1) limits := rfl
  have hstack : (m.raised fuel limits).frame.stack = m.frame.stack := rfl
  cases i with
  | binary op =>
    simp only [exec, hburn, hstack]
    split
    · exact lasts_proceed hburnt hlimits _ _
    · exact .halt _
  | load => exact lasts_fetch hburnt hlimits _ _
  | loadByte => exact lasts_fetch hburnt hlimits _ _
  | store => exact lasts_put hburnt hlimits _ _
  | storeByte => exact lasts_put hburnt hlimits _ _
  | memoryGrow => exact lasts_growMemory hburnt hlimits _
  | loop body => exact lasts_enterLoop hfuel hlimits _ _ _
  | br depth => exact lasts_branchTo hburnt hlimits depth
  | brIf depth =>
    simp only [exec, hburn, hstack]
    split
    · exact lasts_branchTo (m := m.burn.popOperand) hburnt hlimits depth
    · exact lasts_proceed hburnt hlimits _ _
  | call index =>
    simp only [exec, hburn, callIndex]
    cases hcallee : p.callee? index with
    | none => exact .halt _
    | some callee =>
      cases callee with
      | host b =>
        exact lasts_callHost hburnt hlimits (hp b (Program.mem_imports_of_callee? hcallee)) hle rest
      | guest f => exact lasts_enterFunction hburnt hlimits f _ rest _
  | ret => exact lasts_leaveFunction hfuel hlimits
  | unreachable => exact .halt fuel
  | block _ | drop | nop => exact .next hfuel hlimits
  | branch _ _ | const _ | memorySize | localGet _ | localSet _ | localTee _ | floatConst _
  | floatDiv | reinterpret => exact .next hburnt hlimits

/-- With more fuel and under larger limits a step comes to the same, unless it cuts the call off. -/
theorem lasts_step (hp : ∀ b ∈ p.imports, b.HeedsLimits) (hle : limits₀ ≤ limits) :
    Lasts limits₀ limits (m.step p) ((m.raised fuel limits).step p) := by
  have hframe : (m.raised fuel limits).frame = m.frame := rfl
  unfold step
  rw [hframe]
  split
  · exact lasts_exec hfuel hlimits hp hle _ _
  · split
    · exact .next hfuel hlimits
    · exact lasts_leaveFunction hfuel hlimits

end

/-! ## Runs -/

/-- With more fuel and under larger limits a run comes to the same, unless it was cut off. -/
theorem run_raised (hp : ∀ b ∈ p.imports, b.HeedsLimits) (hfuel : m.fuel ≤ fuel)
    (hle : m.context.limits ≤ limits) (hlasts : ¬(m.run p).stop.IsCutOff) :
    ∃ left, (m.raised fuel limits).run p = (m.run p).raised left limits := by
  induction m using run.induct p generalizing fuel with
  | case1 m halt hhalt =>
    have hstep := lasts_step hfuel rfl hp hle
    rw [run_of_halt hhalt] at hlasts ⊢
    rw [hhalt] at hstep
    generalize hraised : (m.raised fuel limits).step p = s at hstep
    cases hstep with
    | halt left => exact ⟨left, run_of_halt hraised⟩
    | cutOff hstop => exact absurd hstop hlasts
  | case2 m m' hnext ih =>
    have hstep := lasts_step hfuel rfl hp hle
    rw [run_of_next hnext] at hlasts ⊢
    rw [hnext] at hstep
    generalize hraised : (m.raised fuel limits).step p = s at hstep
    cases hstep with
    | @next _ fuel' hfuel' hlimits =>
      rw [run_of_next hraised]
      exact ih hfuel' (hlimits ▸ hle) hlasts

end Machine

/-! ## Calls from outside -/

namespace Program

variable {p : Program} {fuel fuel' : Nat} {memory : Memory} {context : Context}
  {limits : LogLimits}

/-- A guest that is called from outside. -/
lemma runGuest_raised (hp : ∀ b ∈ p.imports, b.HeedsLimits) (hfuel : fuel ≤ fuel')
    (hle : context.limits ≤ limits) {f : Function}
    (hlasts : ¬(p.runGuest f fuel memory context).stop.IsCutOff) :
    ∃ left, p.runGuest f fuel' memory (context.raised limits) =
      (p.runGuest f fuel memory context).raised left limits := by
  unfold runGuest at hlasts ⊢
  by_cases hzero : fuel = 0
  · rw [if_pos hzero] at hlasts
    exact absurd trivial hlasts
  · have hsome : ¬fuel' = 0 := by omega
    rw [if_neg hzero] at hlasts
    rw [if_neg hzero, if_neg hsome]
    exact Machine.run_raised (m := machine f fuel memory context) hp
      (Nat.sub_le_sub_right hfuel 1) hle hlasts

/-- A host function that is called without a guest in between. -/
lemma runHost_raised {b : Binding} (hb : b.HeedsLimits) (hle : context.limits ≤ limits)
    (hlasts : ¬(runHost b fuel memory context).stop.IsCutOff) :
    runHost b fuel' memory (context.raised limits) =
      (runHost b fuel memory context).raised fuel' limits := by
  rcases hb context memory [] limits hle with ⟨e, he, hlimit⟩ | ⟨_, hraised⟩
  · unfold runHost at hlasts
    simp only [he] at hlasts
    exact absurd hlimit hlasts
  · simp only [runHost, hraised]
    rfl

/-- With more fuel and under larger limits a call of an exported function comes to the same, unless
it was cut off. -/
theorem runExport_raised (hp : ∀ b ∈ p.imports, b.HeedsLimits) (hfuel : fuel ≤ fuel')
    (hle : context.limits ≤ limits) {index : Nat}
    (hlasts : ¬(p.runExport index fuel memory context).stop.IsCutOff) :
    ∃ left, p.runExport index fuel' memory (context.raised limits) =
      (p.runExport index fuel memory context).raised left limits := by
  unfold runExport at hlasts ⊢
  cases hcallee : p.callee? index with
  | none => exact ⟨fuel', rfl⟩
  | some callee =>
    rw [hcallee] at hlasts
    cases callee with
    | guest f => exact runGuest_raised hp hfuel hle hlasts
    | host b =>
      have hb := hp b (mem_imports_of_callee? hcallee)
      have hhost := @runHost_raised fuel fuel' .empty context limits b hb hle hlasts
      refine ⟨fuel', ?_⟩
      dsimp only
      rw [hhost]
      rfl

end Program

namespace Instance

variable {i : Instance} {fuel : Nat} {limits : LogLimits} {name : String}

/-- The instance with a larger budget: fuel for a call and limits of the log.  What is left of the
fuel of earlier calls is any number. -/
def raised (i : Instance) (fuel spent : Nat) (limits : LogLimits) : Instance :=
  { i with
    budget := { i.budget with fuel := fuel }
    fuel := spent
    context := i.context.raised limits }

/-- A call was cut off if its answer says so. -/
def IsCutOff (result : Except SandboxError Unit) : Prop :=
  result = .error .fuelExhausted ∨ ∃ e, result = .error (.host e) ∧ e.IsLogLimit

/-- The answer of a call says that it was cut off. -/
lemma isCutOff_of_stop {stop : Stop} (h : stop.IsCutOff) :
    IsCutOff (match stop.error? with | some e => .error e | none => .ok ()) := by
  cases stop with
  | finished => cases h
  | trapped t => cases h
  | refused e => exact Or.inr ⟨e, rfl, h⟩
  | fuelExhausted => exact Or.inl rfl

/-- With a larger budget a call comes to the same, unless it was cut off. -/
lemma call_raised (himports : ∀ b ∈ i.program.imports, b.HeedsLimits)
    (hfuel : i.budget.fuel ≤ fuel) (hle : i.context.limits ≤ limits)
    (hlasts : ¬IsCutOff (i.call name).1) (spent : Nat) :
    ∃ left, (i.raised fuel spent limits).call name =
      ((i.call name).1, (i.call name).2.raised fuel left limits) := by
  unfold call at hlasts ⊢
  have hmodule : (i.raised fuel spent limits).module = i.module := rfl
  dsimp only at hlasts ⊢
  rw [hmodule]
  cases hexport : i.module.exportedFunction? name with
  | none => exact ⟨fuel, rfl⟩
  | some index =>
    rw [hexport] at hlasts
    dsimp only at hlasts ⊢
    by_cases htype : functionType i.module index = .function entrySignature
    · rw [if_pos htype] at hlasts
      simp only [if_pos htype]
      have hrun : ¬(i.program.runExport index i.budget.fuel i.memory i.context).stop.IsCutOff :=
        fun hstop => hlasts (isCutOff_of_stop hstop)
      obtain ⟨left, hraised⟩ := Program.runExport_raised himports hfuel hle hrun
      have hsame : (i.raised fuel spent limits).program.runExport index
          (i.raised fuel spent limits).budget.fuel (i.raised fuel spent limits).memory
          (i.raised fuel spent limits).context =
            (i.program.runExport index i.budget.fuel i.memory i.context).raised left limits :=
        hraised
      refine ⟨left, ?_⟩
      rw [hsame]
      rfl
    · simp only [if_neg htype]
      exact ⟨fuel, rfl⟩

/-- If the imports of an instance heed the limits of the log, as those of the bridge do, a call that
succeeds does so with more fuel and under larger limits, with the same log and the same memory.  A
call that fails, and neither for want of fuel nor for the limits, fails with the same error, the
same log and the same memory.  What a call comes to does not depend on the fuel that is left of
earlier calls. -/
theorem call_of_larger_budget
    (himports : ∀ b ∈ i.program.imports,
      (∃ f : Bridge.HostFunction, b = f.binding) ∨ b.HeedsLimits)
    (hfuel : i.budget.fuel ≤ fuel) (hle : i.context.limits ≤ limits) (name : String) :
    ((i.call name).1 = .ok () → ∀ spent,
      ((i.raised fuel spent limits).call name).1 = .ok () ∧
        ((i.raised fuel spent limits).call name).2.context.log = (i.call name).2.context.log ∧
        ((i.raised fuel spent limits).call name).2.memory = (i.call name).2.memory) ∧
      (∀ e, (i.call name).1 = .error e → e ≠ .fuelExhausted →
        (∀ error, e = .host error → ¬error.IsLogLimit) → ∀ spent,
          ((i.raised fuel spent limits).call name).1 = .error e ∧
            ((i.raised fuel spent limits).call name).2.context.log =
              (i.call name).2.context.log ∧
            ((i.raised fuel spent limits).call name).2.memory = (i.call name).2.memory) ∧
      ∀ spent, { i with fuel := spent }.call name = i.call name := by
  have hheed : ∀ b ∈ i.program.imports, b.HeedsLimits := by
    intro b hb
    rcases himports b hb with ⟨f, rfl⟩ | hheeds
    · exact f.heedsLimits_binding
    · exact hheeds
  refine ⟨fun hok spent => ?_, fun e he hfuelled hlimit spent => ?_, fun _ => rfl⟩
  · have hlasts : ¬IsCutOff (i.call name).1 := by
      rw [hok]
      rintro (hcut | ⟨e, hcut, _⟩) <;> cases hcut
    obtain ⟨left, hraised⟩ := call_raised hheed hfuel hle hlasts spent
    rw [hraised]
    exact ⟨hok, rfl, rfl⟩
  · have hlasts : ¬IsCutOff (i.call name).1 := by
      rw [he]
      rintro (hcut | ⟨error, hcut, hlog⟩)
      · exact hfuelled (Except.error.inj hcut)
      · exact hlimit error (Except.error.inj hcut) hlog
    obtain ⟨left, hraised⟩ := call_raised hheed hfuel hle hlasts spent
    rw [hraised]
    exact ⟨he, rfl, rfl⟩

end Instance

/-- The host function that tells a number heeds the limits. -/
lemma heedsLimits_tell : tell.HeedsLimits := by
  intro context memory arguments limits h
  rcases context.record_raised h "tell" (pagesRecord (arguments.headD 0).toUInt32) with
    ⟨e, he, hlimit⟩ | ⟨c', hc', hsame, hraised⟩
  · refine Or.inl ⟨e, ?_, hlimit⟩
    simp only [tell, Handler.onContext, he]
  · refine Or.inr ⟨?_, ?_⟩
    · simp only [tell, Handler.onContext, hc']
      exact hsame
    · simp only [tell, Handler.onContext, hc', hraised]
      rfl

/-- With twice the fuel and larger limits a guest grows its memory to two pages, and tells so, as
before; and a guest that tells two and then stops does the same. -/
theorem Instance.call_of_larger_budget_growing :
    (((growingInstance 1 (.new .empty .standard)).raised 20 0 ⟨5000, 2000000⟩).call "main").1 =
        .ok () ∧
      (((growingInstance 1 (.new .empty .standard)).raised 20 0 ⟨5000, 2000000⟩).call
        "main").2.memory = .zeros (2 * pageSize) ∧
      (((stoppingInstance (.new .empty .standard)).raised 20 0 ⟨5000, 2000000⟩).call "main").1 =
        .error (.trapped Trap.unreachable.message) ∧
      (((stoppingInstance (.new .empty .standard)).raised 20 0 ⟨5000, 2000000⟩).call
        "main").2.context.log = .ofList [pagesRecord 2] := by
  have hgrowing := call_growing (k := 1) .empty (by decide)
  obtain ⟨hstopping, _⟩ := call_stopping .empty
  have hle : LogLimits.standard ≤ ⟨5000, 2000000⟩ := ⟨by decide, by decide⟩
  have himports : ∀ b ∈ (#[tell] : Array Binding),
      (∃ f : Bridge.HostFunction, b = f.binding) ∨ b.HeedsLimits := by
    intro b hb
    rw [List.mem_singleton.1 (Array.mem_def.1 hb)]
    exact Or.inr heedsLimits_tell
  obtain ⟨hok, _⟩ := call_of_larger_budget (i := growingInstance 1 (.new .empty .standard))
    himports (show 10 ≤ 20 by decide) hle "main"
  obtain ⟨_, herror, _⟩ := call_of_larger_budget (i := stoppingInstance (.new .empty .standard))
    himports (show 10 ≤ 20 by decide) hle "main"
  rw [hgrowing] at hok
  rw [hstopping] at herror
  obtain ⟨hanswer, _, hmemory⟩ := hok rfl 0
  obtain ⟨hfails, hlog, _⟩ := herror _ rfl SandboxError.noConfusion (fun _ h => nomatch h) 0
  exact ⟨hanswer, hmemory, hfails, hlog⟩

end Wasm

end ContractHost
