import Mathlib.Data.List.Chain
import ContractHost.Proofs.Wasm.Steps

/-!
# The machines of a run

A run goes through machines, each a step after the one before, until a step ends it
(`Machine.path`).  The calls of host functions are those that the machines on the path make
(`Machine.hostCalls_eq_filterMap`), the fuel that is left on the way is what the steps so far have
not burnt (`Machine.exists_path_eq`), and what every step keeps holds of all machines on the path
(`Machine.forall_mem_path`).
-/

namespace ContractHost.Wasm

namespace Machine

variable {p : Program} {m m' : Machine}

/-- The machines that a run goes through, from the first to the one whose step ends it. -/
def path (p : Program) (m : Machine) : List Machine :=
  m ::
    match _h : m.step p with
    | .halt _ => []
    | .next m' => path p m'
termination_by (m.fuel, m.weight)
decreasing_by
  rcases lighter_of_step _h with h | ⟨h, hw⟩
  · exact Prod.Lex.left _ _ h
  · rw [h]
    exact Prod.Lex.right _ hw

/-- If the first step ends the run, there is one machine. -/
lemma path_of_halt {h : Halt} (hstep : m.step p = .halt h) : m.path p = [m] := by
  rw [path]
  split
  next => rfl
  next hm => cases hm.symm.trans hstep

/-- A path goes on from the machine that a step leaves. -/
lemma path_of_next (hstep : m.step p = .next m') : m.path p = m :: m'.path p := by
  rw [path]
  split
  next hh => cases hh.symm.trans hstep
  next hm => rw [Step.next.inj (hm.symm.trans hstep)]

/-- What every step keeps holds of all machines on the path. -/
theorem forall_mem_path {P : Machine → Prop}
    (hstep : ∀ m m', P m → m.step p = .next m' → P m') (h : P m) : ∀ c ∈ m.path p, P c := by
  induction m using run.induct p with
  | case1 m halt hhalt =>
    intro c hc
    rw [path_of_halt hhalt, List.mem_singleton] at hc
    rw [hc]
    exact h
  | case2 m m' hnext ih =>
    intro c hc
    rw [path_of_next hnext] at hc
    rcases List.mem_cons.1 hc with rfl | hc
    · exact h
    · exact ih (hstep m m' h hnext) c hc

/-- Where no step on the way calls a host function, stores or grows, the memory is kept. -/
lemma memory_of_path_eq {before after : List Machine} {later : Machine}
    (hpath : m.path p = before ++ later :: after)
    (hkept : ∀ c ∈ before, c.hostCall? p = none ∧ c.mayChangeMemory = false) :
    later.memory = m.memory := by
  induction before generalizing m with
  | nil =>
    rw [path, List.nil_append, List.cons_eq_cons] at hpath
    rw [hpath.1]
  | cons c before ih =>
    obtain ⟨⟨hcall, hcode⟩, hrest⟩ := List.forall_mem_cons.1 hkept
    cases hstep : m.step p with
    | halt halt =>
      rw [path_of_halt hstep, List.cons_append, List.cons_eq_cons] at hpath
      exact absurd hpath.2.symm (List.append_ne_nil_of_right_ne_nil before (List.cons_ne_nil _ _))
    | next m' =>
      rw [path_of_next hstep, List.cons_append, List.cons_eq_cons] at hpath
      obtain ⟨rfl, hpath⟩ := hpath
      rw [ih hpath hrest, memory_of_step_eq_next hcall hcode hstep]

/-- The fuel after a step is what it has not burnt. -/
lemma fuel_of_step (h : m.step p = .next m') : m'.fuel = m.fuel - m.cost p := by
  have hsteps := steps p m
  rw [h] at hsteps
  cases hsteps with
  | moves _ hfuel _ _ => exact hfuel
  | served _ _ hfuel _ _ => exact hfuel

/-- A path leads, by steps that go on, to a machine whose step is the end of the run; and the fuel
there is what the steps before have not burnt. -/
theorem exists_path_eq (p : Program) (m : Machine) :
    ∃ before last, m.path p = before ++ [last] ∧ last.step p = .halt (m.run p) ∧
      (∀ c ∈ before, ∃ c', c.step p = .next c') ∧
      last.fuel = m.fuel - (before.map (cost p)).sum := by
  induction m using run.induct p with
  | case1 m halt hhalt =>
    refine ⟨[], m, path_of_halt hhalt, ?_, ?_, rfl⟩
    · rw [run_of_halt hhalt]
      exact hhalt
    · intro c hc
      cases hc
  | case2 m m' hnext ih =>
    obtain ⟨before, last, hpath, hlast, hbefore, hfuel⟩ := ih
    refine ⟨m :: before, last, ?_, ?_, ?_, ?_⟩
    · rw [path_of_next hnext, hpath, List.cons_append]
    · rw [run_of_next hnext]
      exact hlast
    · intro c hc
      rcases List.mem_cons.1 hc with rfl | hc
      · exact ⟨m', hnext⟩
      · exact hbefore c hc
    · rw [hfuel, fuel_of_step hnext, List.map_cons, List.sum_cons, Nat.sub_sub]

/-- A run ends as the first step on its path ends that does not go on. -/
lemma run_eq_of_mem_path {c : Machine} {halt : Halt} (hc : c ∈ m.path p)
    (hstep : c.step p = .halt halt) : m.run p = halt := by
  obtain ⟨before, last, hpath, hlast, hbefore, -⟩ := exists_path_eq p m
  rw [hpath, List.mem_append, List.mem_singleton] at hc
  rcases hc with hc | rfl
  · obtain ⟨c', hnext⟩ := hbefore c hc
    cases hnext.symm.trans hstep
  · exact Step.halt.inj (hlast.symm.trans hstep)

/-- The calls of host functions are those that the machines on the path make. -/
lemma hostCalls_eq_filterMap (p : Program) (m : Machine) :
    m.hostCalls p = (m.path p).filterMap (hostCall? p) := by
  induction m using run.induct p with
  | case1 m halt hhalt =>
    rw [hostCalls_of_halt hhalt, path_of_halt hhalt]
    cases hcall : m.hostCall? p with
    | none => simp [hcall]
    | some call => simp [hcall]
  | case2 m m' hnext ih =>
    rw [hostCalls_of_next hnext, path_of_next hnext, ih]
    cases hcall : m.hostCall? p with
    | none => simp [hcall]
    | some call => simp [hcall]

end Machine

/-! ## Calls from outside -/

namespace Program

/-- The machines that a call from outside goes through.  A host function that is called without a
guest in between has none, and neither has a guest that is called without fuel. -/
def path (p : Program) (index fuel : Nat) (memory : Memory) (context : Context) : List Machine :=
  match p.callee? index with
  | some (.guest f) => if fuel = 0 then [] else (machine f fuel memory context).path p
  | _ => []

/-- The calls of host functions that running the start function makes.  A host function that is the
start function is one itself, and sees the memory. -/
def startCalls (p : Program) (index fuel : Nat) (memory : Memory) (context : Context) :
    List HostCall :=
  match p.callee? index with
  | some (.host b) => [⟨b, context, memory, []⟩]
  | _ => p.exportCalls index fuel memory context

/-- A call from outside ends as a step does that ends it. -/
lemma run_eq_of_mem_path {p : Program} {index fuel : Nat} {memory : Memory} {context : Context}
    {c : Machine} {halt : Halt} (hc : c ∈ p.path index fuel memory context)
    (hstep : c.step p = .halt halt) :
    p.runExport index fuel memory context = halt ∧
      p.runStart index fuel memory context = halt := by
  unfold path at hc
  split at hc
  next f hf =>
    split at hc
    · cases hc
    next hfuel =>
      have hrun : p.runGuest f fuel memory context = halt := by
        rw [runGuest, if_neg hfuel]
        exact Machine.run_eq_of_mem_path hc hstep
      simp only [runExport, runStart, hf]
      exact ⟨hrun, hrun⟩
  next => cases hc

/-- What every step keeps holds of all machines that a call goes through. -/
lemma forall_mem_path {p : Program} {index fuel : Nat} {memory : Memory} {context : Context}
    {P : Machine → Prop} (hstep : ∀ m m', P m → m.step p = .next m' → P m')
    (hfirst : ∀ f, p.callee? index = some (.guest f) → P (machine f fuel memory context)) :
    ∀ c ∈ p.path index fuel memory context, P c := by
  intro c hc
  unfold path at hc
  split at hc
  next f hf =>
    split at hc
    · cases hc
    · exact Machine.forall_mem_path hstep (hfirst f hf) c hc
  next => cases hc

end Program

namespace Instance

/-- The machines that a call of an exported function goes through. -/
def path (i : Instance) (name : String) : List Machine :=
  match i.module.exportedFunction? name with
  | none => []
  | some index =>
    if functionType i.module index = .function entrySignature then
      i.program.path index i.budget.fuel i.memory i.context
    else []

/-- The machines that the start function goes through. -/
def startPath (i : Instance) : List Machine :=
  match i.module.description.start with
  | none => []
  | some index => i.program.path index i.fuel i.memory i.context

/-- The calls of host functions that the start function makes. -/
def startCalls (i : Instance) : List HostCall :=
  match i.module.description.start with
  | none => []
  | some index => i.program.startCalls index i.fuel i.memory i.context

variable {i : Instance} {name : String} {c : Machine} {halt : Halt} {e : SandboxError}

/-- A call of an exported function has the answer that belongs to the step that ends it. -/
lemma call_of_mem_path (hc : c ∈ i.path name) (hstep : c.step i.program = .halt halt)
    (he : halt.stop.error? = some e) : (i.call name).1 = .error e := by
  unfold path at hc
  split at hc
  · cases hc
  next index hindex =>
    split at hc
    next htype =>
      rw [call_of_runExport hindex htype (Program.run_eq_of_mem_path hc hstep).1, he]
    · cases hc

/-- A start fails as the step does that ends it. -/
lemma start_of_mem_path (hc : c ∈ i.startPath) (hstep : c.step i.program = .halt halt)
    (he : halt.stop.error? = some e) : i.start = .error e := by
  unfold startPath at hc
  split at hc
  · cases hc
  next index hindex =>
    simp only [start, hindex, (Program.run_eq_of_mem_path hc hstep).2, he]

end Instance

end ContractHost.Wasm
