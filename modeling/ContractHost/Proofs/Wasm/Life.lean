import ContractHost.Proofs.Driver.Provenance
import ContractHost.Proofs.Wasm.Path

/-!
# The memories of an instance

An instance has one memory after another: those of the machines that its start function and its
calls go through, and those that the host writes (`Instance.Life`).  All of them are made of whole
pages within the budget, and none is smaller than one before (`Instance.Life.grown`).

A guest that asks for pages is given them if they are within the budget and within what its module
says, and otherwise is told minus one, with the memory as it was (`Machine.step_memoryGrow_of_lt`).
-/

namespace ContractHost

/-! ## Memories within a budget -/

namespace Memory

variable {bytes : Nat} {memory memory' : Memory} {ms : List Memory}

/-- The memory is made of whole pages, and no larger than a number of bytes. -/
structure Within (bytes : Nat) (memory : Memory) : Prop where
  /-- There is no page of which only a part is there. -/
  whole : pageSize ∣ memory.capacity
  /-- The memory is not too large. -/
  capacity_le : memory.capacity ≤ bytes

/-- Memories of whole pages within a number of bytes, none smaller than the one before. -/
structure Grown (bytes : Nat) (ms : List Memory) : Prop where
  /-- Each memory is made of whole pages within the bytes. -/
  within : ∀ memory ∈ ms, memory.Within bytes
  /-- No memory is smaller than the one before. -/
  chain : ms.IsChain fun memory memory' => memory.capacity ≤ memory'.capacity

/-- What is within a number of bytes depends on the capacity alone. -/
lemma Within.of_capacity_eq (h : memory.Within bytes) (hsame : memory'.capacity = memory.capacity) :
    memory'.Within bytes := by
  refine ⟨?_, ?_⟩
  · rw [hsame]
    exact h.whole
  · rw [hsame]
    exact h.capacity_le

/-- The capacity of a memory of whole pages is counted by its pages. -/
lemma Within.pages_mul (h : memory.Within bytes) : memory.pages * pageSize = memory.capacity :=
  Nat.div_mul_cancel h.whole

/-- Growing adds to the capacity. -/
lemma capacity_grow (memory : Memory) (n : Nat) :
    (memory.grow n).capacity = memory.capacity + n := by
  rw [grow, capacity, ByteArray.size_append, size_zeroBytes]
  rfl

/-- A memory of zeros has as many bytes as it was made of. -/
lemma capacity_zeros (n : Nat) : (zeros n).capacity = n := size_zeroBytes n

/-- A memory can be followed by one that is not smaller. -/
lemma grown_pair (h : memory.Within bytes) (h' : memory'.Within bytes)
    (hle : memory.capacity ≤ memory'.capacity) : Grown bytes [memory, memory'] := by
  refine ⟨?_, List.isChain_pair.2 hle⟩
  intro c hc
  rcases List.mem_pair.1 hc with rfl | rfl
  · exact h
  · exact h'

/-- A memory can stand before those that are not smaller. -/
lemma Grown.cons (h : Grown bytes (memory' :: ms)) (hmemory : memory.Within bytes)
    (hle : memory.capacity ≤ memory'.capacity) : Grown bytes (memory :: memory' :: ms) := by
  refine ⟨?_, List.isChain_cons_cons.2 ⟨hle, h.chain⟩⟩
  exact List.forall_mem_cons.2 ⟨hmemory, h.within⟩

/-- Memories can be followed by others that begin with the last. -/
lemma Grown.join {more : List Memory} (h : Grown bytes (ms ++ [memory]))
    (hmore : Grown bytes (memory :: more)) : Grown bytes (ms ++ memory :: more) := by
  refine ⟨?_, List.isChain_split.2 ⟨h.chain, hmore.chain⟩⟩
  intro c hc
  rcases List.mem_append.1 hc with hc | hc
  · exact h.within c (List.mem_append_left _ hc)
  · exact hmore.within c hc

/-- No memory is smaller than any that was there before. -/
lemma Grown.pairwise (h : Grown bytes ms) :
    ms.Pairwise fun memory memory' => memory.capacity ≤ memory'.capacity := by
  have htrans : IsTrans Memory fun memory memory' => memory.capacity ≤ memory'.capacity :=
    ⟨fun _ _ _ => Nat.le_trans⟩
  exact List.isChain_iff_pairwise.1 h.chain

/-- Every byte of a memory that a signed word can address is read at an offset that is not
negative. -/
lemma exists_read {k : Nat} (hk : k < memory.capacity) (hcapacity : memory.capacity ≤ 2 ^ 31) :
    ∃ (offset : Int32) (byte : UInt8), 0 ≤ offset.toInt ∧ offset.toInt = k ∧
      memory.bytes[k]? = some byte ∧ memory.read offset 1 = .ok ⟨#[byte]⟩ := by
  have hoffset : (Int32.ofNat k).toInt = k := Int32.toInt_ofNat_of_lt (by omega)
  have hone : (1 : Int32).toInt = 1 := rfl
  have hbyte : memory.bytes[k]? = some memory.bytes[k] := getElem?_pos memory.bytes k hk
  refine ⟨Int32.ofNat k, memory.bytes[k], by omega, hoffset, hbyte, read_eq_ok_iff.2 ?_⟩
  rw [hoffset, hone]
  refine ⟨⟨by omega, by omega, by omega⟩, rfl, fun n hn => ?_⟩
  have hzero : n = 0 := Nat.lt_one_iff.1 hn
  subst hzero
  exact hbyte.symm

end Memory

namespace Wasm

/-! ## Steps and runs -/

/-- The memory after a step. -/
def Step.memory : Step → Memory
  | .next m => m.memory
  | .halt h => h.memory

section

variable {p : Program} {bytes : Nat} {m : Machine} {memory memory' : Memory} {rest : List Instr}

/-- What a guest does to its memory leaves it within the bytes that its program allows. -/
lemma Machine.Changes.within (h : m.Changes p memory') (hp : p.limiter.memoryBytes ≤ bytes)
    (hmemory : m.memory.Within bytes) :
    memory'.Within bytes ∧ m.memory.capacity ≤ memory'.capacity := by
  cases h with
  | kept => exact ⟨hmemory, Nat.le_refl _⟩
  | written _ hinside =>
    have hsame := Memory.capacity_splice _ _ _ hinside
    exact ⟨hmemory.of_capacity_eq hsame, Nat.le_of_eq hsame.symm⟩
  | @grown pages _ hroom =>
    have hpages := hmemory.pages_mul
    obtain ⟨-, hgranted⟩ := Program.mayGrow_iff.1 hroom
    rw [Nat.add_mul, hpages] at hgranted
    refine ⟨⟨?_, ?_⟩, ?_⟩
    · rw [Memory.capacity_grow]
      exact Nat.dvd_add hmemory.whole (Nat.dvd_mul_left _ _)
    · rw [Memory.capacity_grow]
      exact Nat.le_trans hgranted hp
    · rw [Memory.capacity_grow]
      exact Nat.le_add_right _ _

namespace Machine

/-- A host function is given the memory of the machine that calls it. -/
lemma memory_of_hostCall? {call : HostCall} (h : m.hostCall? p = some call) :
    call.memory = m.memory := by
  unfold hostCall? at h
  split at h
  · split at h
    · cases h
      rfl
    · cases h
  · cases h

/-- The memory after a step is within the bytes that the program allows, and not smaller. -/
lemma within_step (hp : p.limiter.memoryBytes ≤ bytes) (hm : m.memory.Within bytes) :
    (m.step p).memory.Within bytes ∧ m.memory.capacity ≤ (m.step p).memory.capacity := by
  -- A host function keeps the capacity.
  have hreply : ∀ call, m.hostCall? p = some call →
      call.reply.memory.Within bytes ∧ m.memory.capacity ≤ call.reply.memory.capacity := by
    intro call hcall
    have hsame : call.reply.memory.capacity = m.memory.capacity := by
      rw [← memory_of_hostCall? hcall]
      exact call.binding.handler.capacity_run _ _ _
    exact ⟨hm.of_capacity_eq hsame, Nat.le_of_eq hsame.symm⟩
  have hkept : m.memory.Within bytes ∧ m.memory.capacity ≤ m.memory.capacity :=
    ⟨hm, Nat.le_refl _⟩
  have hsteps := steps p m
  generalize m.step p = s at hsteps
  cases hsteps with
  | moves _ _ hchanges _ => exact hchanges.within hp hm
  | served hcall _ _ hmemory _ =>
    rw [Step.memory, hmemory]
    exact hreply _ hcall
  | refused hcall _ => exact hreply _ hcall
  | unanswered hcall _ => exact hreply _ hcall
  | trapped _ => exact hkept
  | exhausted _ _ _ => exact hkept
  | finished _ => exact hkept

/-- The memories that a run goes through are within the bytes that the program allows, and none is
smaller than one before. -/
lemma grown_path (hp : p.limiter.memoryBytes ≤ bytes) (hm : m.memory.Within bytes) :
    Memory.Grown bytes ((m.path p).map Machine.memory ++ [(m.run p).memory]) := by
  induction m using run.induct p with
  | case1 m halt hhalt =>
    obtain ⟨hwithin, hle⟩ := within_step hp hm
    rw [hhalt] at hwithin hle
    rw [path_of_halt hhalt, run_of_halt hhalt]
    exact Memory.grown_pair hm hwithin hle
  | case2 m m' hnext ih =>
    obtain ⟨hwithin, hle⟩ := within_step hp hm
    rw [hnext] at hwithin hle
    have hrest := ih hwithin
    rw [path_of_next hnext, run_of_next hnext]
    rw [path] at hrest ⊢
    exact hrest.cons hm hle

/-! ## Asking for pages -/

/-- A guest that asks for more than the bytes that its program allows is told minus one, and nothing
else happens. -/
lemma step_memoryGrow_of_lt (hp : p.limiter.memoryBytes ≤ bytes)
    (hm : pageSize ∣ m.memory.capacity) (hcode : m.frame.code = .memoryGrow :: rest)
    (hlt : bytes < m.memory.capacity + (top m.frame.stack).toNat * pageSize) :
    m.step p = .next { m with
      fuel := m.fuel - 1
      frame := { m.frame with code := rest, stack := minusOne :: m.frame.stack.tail } } := by
  have hpages : m.memory.pages * pageSize = m.memory.capacity := Nat.div_mul_cancel hm
  have hfull : ¬p.mayGrow (m.burn.memory.pages + (top m.burn.frame.stack).toNat) = true := by
    intro hroom
    obtain ⟨-, hgranted⟩ := Program.mayGrow_iff.1 hroom
    rw [Nat.add_mul] at hgranted
    exact absurd (Nat.le_trans hgranted hp) (by rw [← hpages] at hlt; exact Nat.not_le.2 hlt)
  simp only [step, hcode, exec, growMemory, if_neg hfull]
  rfl

/-- A guest that asks for pages that its program allows is told how many there were, and is given
zeros behind what there was. -/
lemma step_memoryGrow_of_le (hcode : m.frame.code = .memoryGrow :: rest)
    (hroom : p.mayGrow (m.memory.pages + (top m.frame.stack).toNat) = true) :
    m.step p = .next { m with
      fuel := m.fuel - 1
      memory := m.memory.grow ((top m.frame.stack).toNat * pageSize)
      frame := { m.frame with
        code := rest, stack := UInt32.ofNat m.memory.pages :: m.frame.stack.tail } } := by
  have hroom' : p.mayGrow (m.burn.memory.pages + (top m.burn.frame.stack).toNat) = true := hroom
  simp only [step, hcode, exec, growMemory, if_pos hroom']
  rfl

end Machine

namespace Program

variable {f : Function} {index fuel : Nat} {context : Context}

/-- The memories that a guest goes through that is called from outside. -/
lemma grown_runGuest (hp : p.limiter.memoryBytes ≤ bytes) (hmemory : memory.Within bytes)
    (hf : p.callee? index = some (.guest f)) :
    Memory.Grown bytes (memory :: ((p.path index fuel memory context).map Machine.memory ++
      [(p.runGuest f fuel memory context).memory])) := by
  unfold path runGuest
  rw [hf]
  by_cases hfuel : fuel = 0
  · simp only [if_pos hfuel]
    exact Memory.grown_pair hmemory hmemory (Nat.le_refl _)
  · simp only [if_neg hfuel]
    have hrun : Memory.Grown bytes (((machine f fuel memory context).path p).map Machine.memory ++
      [((machine f fuel memory context).run p).memory]) := Machine.grown_path hp hmemory
    rw [Machine.path] at hrun ⊢
    exact hrun.cons hmemory (Nat.le_refl _)

/-- The memories that a call of an exported function goes through. -/
lemma grown_runExport (hp : p.limiter.memoryBytes ≤ bytes) (hmemory : memory.Within bytes)
    (index fuel : Nat) (context : Context) :
    Memory.Grown bytes (memory :: ((p.path index fuel memory context).map Machine.memory ++
      [(p.runExport index fuel memory context).memory])) := by
  cases hcallee : p.callee? index with
  | none =>
    simp only [path, runExport, hcallee]
    exact Memory.grown_pair hmemory hmemory (Nat.le_refl _)
  | some callee =>
    cases callee with
    | guest f =>
      simp only [runExport, hcallee]
      exact grown_runGuest hp hmemory hcallee
    | host b =>
      simp only [path, runExport, hcallee]
      exact Memory.grown_pair hmemory hmemory (Nat.le_refl _)

/-- The memories that the start function goes through. -/
lemma grown_runStart (hp : p.limiter.memoryBytes ≤ bytes) (hmemory : memory.Within bytes)
    (index fuel : Nat) (context : Context) :
    Memory.Grown bytes (memory :: ((p.path index fuel memory context).map Machine.memory ++
      [(p.runStart index fuel memory context).memory])) := by
  cases hcallee : p.callee? index with
  | none =>
    simp only [path, runStart, hcallee]
    exact Memory.grown_pair hmemory hmemory (Nat.le_refl _)
  | some callee =>
    cases callee with
    | guest f =>
      simp only [runStart, hcallee]
      exact grown_runGuest hp hmemory hcallee
    | host b =>
      have hsame : (runHost b fuel memory context).memory.capacity = memory.capacity :=
        b.handler.capacity_run context memory []
      simp only [path, runStart, hcallee]
      exact Memory.grown_pair hmemory (hmemory.of_capacity_eq hsame) (Nat.le_of_eq hsame.symm)

end Program

end

/-! ## The life of an instance -/

namespace Instance

variable {budget : Budget} {m : Module} {bs : List Binding} {context : Context}
  {i i' : Instance} {ms : List Memory}

/-- What the start function leaves, also if it fails. -/
def started (i : Instance) : Instance :=
  match i.module.description.start with
  | none => i
  | some index => i.absorb (i.program.runStart index i.fuel i.memory i.context)

/-- An instance that starts is what the start function leaves. -/
lemma eq_started (h : i.start = .ok i') : i' = i.started := by
  cases hindex : i.module.description.start with
  | none =>
    simp only [start, hindex] at h
    simp only [started, hindex]
    exact (Except.ok.inj h).symm
  | some index =>
    simp only [start, hindex] at h
    simp only [started, hindex]
    split at h
    · cases h
    · exact (Except.ok.inj h).symm

/-- An instance and the memories that it had before the one that it has, in order.  It is made,
started, called, and written to by the host, and its log is taken.  The memories of a start and of a
call are those of all machines that it goes through, whether it fails or not. -/
inductive Life (budget : Budget) (m : Module) (bs : List Binding) (context : Context) :
    List Memory → Instance → Prop
  | made {i : Instance} (h : prepare budget m bs context = .ok i) : Life budget m bs context [] i
  | started {ms : List Memory} {i : Instance} (h : Life budget m bs context ms i) :
    Life budget m bs context (ms ++ i.memory :: i.startPath.map Machine.memory) i.started
  | holding {ms : List Memory} {i : Instance} (h : Life budget m bs context ms i) (log : Log) :
    Life budget m bs context ms (i.holding log)
  | called {ms : List Memory} {i : Instance} (h : Life budget m bs context ms i) (name : String) :
    Life budget m bs context (ms ++ i.memory :: (i.path name).map Machine.memory) (i.call name).2
  | written {ms : List Memory} {i : Instance} {offset : Int32} {data : ByteArray} {memory : Memory}
    (h : Life budget m bs context ms i) (hwrite : i.memory.write offset data = .ok memory) :
    Life budget m bs context (ms ++ [i.memory]) { i with memory := memory }

/-- Putting data into a memory keeps its capacity. -/
lemma capacity_fill {data : List DataSegment} {memory filled : Memory}
    (h : fill data memory = .ok filled) : filled.capacity = memory.capacity := by
  induction data generalizing memory with
  | nil =>
    rw [← Except.ok.inj h]
  | cons d ds ih =>
    rw [fill] at h
    split at h
    next memory' hput =>
      unfold put? at hput
      split at hput
      next hinside =>
        cases hput
        exact (ih h).trans (Memory.capacity_splice _ _ _ hinside)
      · cases hput
    · cases h

/-- An instance that is ready to start has a memory of the least size that its module says, and that
is within the budget. -/
lemma capacity_of_prepare (h : prepare budget m bs context = .ok i) :
    i.memory.capacity = (memoryExtent m).least * pageSize ∧
      (memoryExtent m).least * pageSize ≤ budget.memoryBytes := by
  obtain ⟨imports, memory, filled, _, hmemory, hfill, rfl⟩ := prepare_eq_ok_iff.1 h
  by_cases hle : (memoryExtent m).least * pageSize ≤ budget.memoryBytes
  · refine ⟨?_, hle⟩
    rw [newMemory_of_le hle] at hmemory
    rw [capacity_fill hfill, ← Except.ok.inj hmemory]
    exact Memory.capacity_zeros _
  · obtain ⟨e, he⟩ := newMemory_of_not_le hle
    cases he.symm.trans hmemory

/-- The limiter of an instance allows as much as its budget. -/
lemma MadeOf.memoryBytes_eq (h : i.MadeOf budget m bs) :
    i.program.limiter.memoryBytes = budget.memoryBytes := by
  obtain ⟨imports, _, hprogram⟩ := h.program_eq
  rw [hprogram]
  rfl

namespace Life

/-- What an instance is made of does not change in its life. -/
lemma madeOf (h : Life budget m bs context ms i) : i.MadeOf budget m bs := by
  induction h with
  | made h => exact madeOf_prepare h
  | @started _ i _ ih =>
    obtain ⟨hmodule, hbudget, hprogram⟩ := ih
    unfold Instance.started
    split
    · exact ⟨hmodule, hbudget, hprogram⟩
    · exact ⟨hmodule, hbudget, hprogram⟩
  | holding _ log ih => exact ⟨ih.module_eq, ih.budget_eq, ih.program_eq⟩
  | called _ name ih => exact ih.call rfl
  | written _ _ ih => exact ⟨ih.module_eq, ih.budget_eq, ih.program_eq⟩

/-- The memories that a start goes through. -/
lemma grown_started (hp : i.program.limiter.memoryBytes ≤ budget.memoryBytes)
    (hmemory : i.memory.Within budget.memoryBytes) :
    Memory.Grown budget.memoryBytes
      (i.memory :: (i.startPath.map Machine.memory ++ [i.started.memory])) := by
  unfold startPath Instance.started
  cases i.module.description.start with
  | none => exact Memory.grown_pair hmemory hmemory (Nat.le_refl _)
  | some index => exact Program.grown_runStart hp hmemory index i.fuel i.context

/-- The memories that a call goes through. -/
lemma grown_called (hp : i.program.limiter.memoryBytes ≤ budget.memoryBytes)
    (hmemory : i.memory.Within budget.memoryBytes) (name : String) :
    Memory.Grown budget.memoryBytes
      (i.memory :: ((i.path name).map Machine.memory ++ [(i.call name).2.memory])) := by
  have hkept := Memory.grown_pair hmemory hmemory (Nat.le_refl _)
  cases hexport : i.module.exportedFunction? name with
  | none =>
    simp only [path, call, hexport]
    exact hkept
  | some index =>
    by_cases htype : functionType i.module index = .function entrySignature
    · simp only [path, call, hexport, if_pos htype]
      exact Program.grown_runExport hp hmemory index i.budget.fuel i.context
    · simp only [path, call, hexport, if_neg htype]
      exact hkept

/-- At every point of its life, the memory of an instance is made of whole pages within the budget,
and not smaller than before. -/
theorem grown (h : Life budget m bs context ms i) :
    Memory.Grown budget.memoryBytes (ms ++ [i.memory]) := by
  induction h with
  | @made i h =>
    obtain ⟨hcapacity, hle⟩ := capacity_of_prepare h
    refine ⟨?_, List.isChain_singleton _⟩
    intro memory hmemory
    rw [List.nil_append, List.mem_singleton] at hmemory
    rw [hmemory]
    exact ⟨hcapacity ▸ Nat.dvd_mul_left _ _, hcapacity ▸ hle⟩
  | @started ms i h ih =>
    have hmemory := ih.within i.memory (List.mem_append_right _ List.mem_cons_self)
    have hstart := grown_started h.madeOf.memoryBytes_eq.le hmemory
    rw [List.append_assoc, List.cons_append]
    exact ih.join hstart
  | holding _ _ ih => exact ih
  | @called ms i h name ih =>
    have hmemory := ih.within i.memory (List.mem_append_right _ List.mem_cons_self)
    have hcall := grown_called h.madeOf.memoryBytes_eq.le hmemory name
    rw [List.append_assoc, List.cons_append]
    exact ih.join hcall
  | @written ms i _ _ memory h hwrite ih =>
    have hmemory := ih.within i.memory (List.mem_append_right _ List.mem_cons_self)
    have hsame := Memory.capacity_write hwrite
    rw [List.append_assoc, List.cons_append]
    exact ih.join (Memory.grown_pair hmemory (hmemory.of_capacity_eq hsame)
      (Nat.le_of_eq hsame.symm))

end Life

end Instance

end Wasm

end ContractHost
