import ContractHost.Proofs.Wasm.Life

/-!
# The cap on the memory of a guest

Settings that are accepted allow no more memory than a signed word can address.  Under them, the
memory of an instance stays within the cap at every point of its life, in whole pages and never
smaller than before; a guest that asks for more is told so and goes on; and a module that asks for
more from the start is never instantiated (`Driver.memory_within_cap`).
-/

namespace ContractHost

namespace Config

/-- Settings are accepted just if all memory that they allow can be addressed. -/
lemma maxMemoryBytes_le_of_validate {c c' : Config} (h : c.validate = .ok c') :
    c' = c ∧ c.maxMemoryBytes ≤ 2 ^ 31 := by
  unfold validate at h
  split at h
  next hle =>
    cases h
    refine ⟨rfl, ?_⟩
    exact Nat.le_trans (Nat.mul_le_mul_right pageSize hle) (by decide)
  · cases h

end Config

namespace Wasm

/-- The engine for settings is that of the budget which they allow, and they were accepted. -/
lemma engineFor_eq_ok {config : Config} {engine : Engine Source Module Instance}
    (h : engineFor config = .ok engine) :
    engine = Wasm.engine (.ofConfig config) ∧ config.maxMemoryBytes ≤ 2 ^ 31 := by
  unfold engineFor at h
  cases hvalid : config.validate with
  | error e =>
    rw [hvalid] at h
    cases h
  | ok accepted =>
    obtain ⟨rfl, hle⟩ := Config.maxMemoryBytes_le_of_validate hvalid
    rw [hvalid] at h
    exact ⟨(Except.ok.inj h).symm, hle⟩

namespace Instance

variable {budget : Budget} {m : Module} {bs : List Binding} {context : Context} {i : Instance}
  {ms : List Memory} {c : Machine} {rest : List Instr}

/-- What lives was made. -/
lemma Life.exists_made (h : Life budget m bs context ms i) :
    ∃ made, prepare budget m bs context = .ok made := by
  induction h with
  | made h => exact ⟨_, h⟩
  | started _ ih => exact ih
  | holding _ _ ih => exact ih
  | called _ _ ih => exact ih
  | written _ _ ih => exact ih

/-- In its life an instance goes through machines whose memories are within the budget. -/
lemma Life.within_path (h : Life budget m bs context ms i)
    (hc : c ∈ i.startPath ∨ ∃ name, c ∈ i.path name) : c.memory.Within budget.memoryBytes := by
  rcases hc with hc | ⟨name, hc⟩
  · refine h.started.grown.within c.memory (List.mem_append_left _ (List.mem_append_right _ ?_))
    exact List.mem_cons_of_mem _ (List.mem_map_of_mem hc)
  · refine (h.called name).grown.within c.memory
      (List.mem_append_left _ (List.mem_append_right _ ?_))
    exact List.mem_cons_of_mem _ (List.mem_map_of_mem hc)

/-- A guest that asks for pages at any point of its life is told minus one, with nothing else
changed, if they are beyond the budget.  If they are within the budget, and within what the module
says of its memory, it is given them. -/
lemma Life.step_memoryGrow (h : Life budget m bs context ms i)
    (hc : c ∈ i.startPath ∨ ∃ name, c ∈ i.path name)
    (hcode : c.frame.code = .memoryGrow :: rest) :
    (budget.memoryBytes < c.memory.capacity + (top c.frame.stack).toNat * pageSize →
      c.step i.program = .next { c with
        fuel := c.fuel - 1
        frame := { c.frame with code := rest, stack := minusOne :: c.frame.stack.tail } }) ∧
      (c.memory.capacity + (top c.frame.stack).toNat * pageSize ≤ budget.memoryBytes →
        c.memory.pages + (top c.frame.stack).toNat ≤
          (memoryExtent m).greatest.getD addressablePages →
        c.step i.program = .next { c with
          fuel := c.fuel - 1
          memory := c.memory.grow ((top c.frame.stack).toNat * pageSize)
          frame := { c.frame with
            code := rest, stack := UInt32.ofNat c.memory.pages :: c.frame.stack.tail } }) := by
  have hwithin := h.within_path hc
  constructor
  · exact Machine.step_memoryGrow_of_lt h.madeOf.memoryBytes_eq.le hwithin.whole hcode
  · intro hroom hextent
    obtain ⟨imports, _, hprogram⟩ := h.madeOf.program_eq
    refine Machine.step_memoryGrow_of_le hcode ?_
    rw [hprogram]
    refine Program.mayGrow_iff.2 ⟨hextent, ?_⟩
    rw [Nat.add_mul, hwithin.pages_mul]
    exact hroom

end Instance

end Wasm

namespace Driver

variable {d d' : Driver Wasm.Source Wasm.Module Wasm.Instance} {budget : Wasm.Budget}
  {engine : Engine Wasm.Source Wasm.Module Wasm.Instance} {registry : Registry} {config : Config}
  {m : Wasm.Module} {i : Wasm.Instance}

/-- Whatever a driver does with an instance is part of its life. -/
lemma kept_life (budget : Wasm.Budget) (registry : Registry) (config : Config) :
    Kept (Wasm.engine budget) registry config fun _ m bs i =>
      ∃ r ms, Wasm.Instance.Life budget m bs (.new r config.logLimits) ms i where
  made {_ _ r _} _ hmade := by
    obtain ⟨made, hprepare, hstart, _⟩ := Wasm.Instance.new_eq_ok_iff.1 hmade
    rw [Wasm.Instance.eq_started hstart]
    exact ⟨r, _, (Wasm.Instance.Life.made hprepare).started⟩
  rejected h := h
  returned {_ _ i i' entry} h hcall := by
    obtain ⟨r, ms, hlife⟩ := h
    have hleft : ((i.holding .empty).call entry).2 = i' := congrArg Prod.snd hcall
    rw [← hleft]
    exact ⟨r, _, ((hlife.holding .empty).called entry).holding .empty⟩
  failed {_ _ i i' entry _} h hcall := by
    obtain ⟨r, ms, hlife⟩ := h
    have hleft : ((i.holding .empty).call entry).2 = i' := congrArg Prod.snd hcall
    rw [← hleft]
    exact ⟨r, _, (hlife.holding .empty).called entry⟩
  written h hwrite := by
    obtain ⟨r, ms, hlife⟩ := h
    exact ⟨r, _, hlife.written hwrite⟩

/-- A module that asks for more memory than the budget is not instantiated. -/
lemma instantiate_ne_ok (hengine : d.engine = Wasm.engine budget) (hm : d.module = some m)
    (hlarge : budget.memoryBytes < (Wasm.Instance.memoryExtent m).least * pageSize)
    (p : Payload) : (d.instantiate p).1 ≠ .ok () := by
  intro hok
  have hmakes : d.instantiate p = (.ok (), (d.instantiate p).2) := Prod.ext hok rfl
  obtain ⟨r, _, hspawn⟩ := spawn_of_instantiate hmakes
  obtain ⟨m', r', i, hm', _, hmade, _⟩ := spawn_eq_ok_iff.1 hspawn
  cases hm.symm.trans hm'
  have hnew : (Wasm.engine budget).instantiate m d.linked (.new r' d.config.logLimits) = .ok i := by
    rw [← hengine]
    exact hmade
  obtain ⟨made, hprepare, _⟩ := Wasm.Instance.new_eq_ok_iff.1 hnew
  exact absurd (Wasm.Instance.capacity_of_prepare hprepare).2 (Nat.not_le.2 hlarge)

/-- Under settings that are accepted, the cap on the memory is a number of whole pages, and can be
addressed by a signed word.  Whatever was done with a driver, its instance has a life; and at every
point of a life, the memory is made of whole pages within the cap, is not smaller than before, and
every byte of it can be read.  A guest that asks for pages beyond the cap is told minus one, with
nothing else changed, and is given those that are within.  A module that asks for more than the cap
from the start is never instantiated. -/
theorem memory_within_cap (hengine : Wasm.engineFor config = .ok engine)
    (h : Reachable engine registry config d) (hm : d.module = some m) :
    config.maxMemoryBytes = config.maxMemoryPages.toNat * 65536 ∧
      config.maxMemoryBytes ≤ 2 ^ 31 ∧ Wasm.minusOne.toInt32 = -1 ∧
      (∀ i, d.guest = some i → ∃ r ms,
        Wasm.Instance.Life (.ofConfig config) m d.linked (.new r config.logLimits) ms i) ∧
      (∀ context ms i, Wasm.Instance.Life (.ofConfig config) m d.linked context ms i →
        (∀ memory ∈ ms ++ [i.memory],
          65536 ∣ memory.capacity ∧ memory.capacity ≤ config.maxMemoryBytes ∧
            ∀ k < memory.capacity, ∃ (offset : Int32) (byte : UInt8), 0 ≤ offset.toInt ∧
              offset.toInt = k ∧ memory.bytes[k]? = some byte ∧
              memory.read offset 1 = .ok ⟨#[byte]⟩) ∧
        ((ms ++ [i.memory]).Pairwise fun memory memory' => memory.capacity ≤ memory'.capacity) ∧
        ∀ c rest, (c ∈ i.startPath ∨ ∃ name, c ∈ i.path name) →
          c.frame.code = .memoryGrow :: rest →
          (config.maxMemoryBytes <
              c.memory.capacity + (Wasm.top c.frame.stack).toNat * 65536 →
            c.step i.program = .next { c with
              fuel := c.fuel - 1
              frame := { c.frame with
                code := rest, stack := Wasm.minusOne :: c.frame.stack.tail } }) ∧
          (c.memory.capacity + (Wasm.top c.frame.stack).toNat * 65536 ≤ config.maxMemoryBytes →
            c.memory.pages + (Wasm.top c.frame.stack).toNat ≤
              (Wasm.Instance.memoryExtent m).greatest.getD Wasm.addressablePages →
            c.step i.program = .next { c with
              fuel := c.fuel - 1
              memory := c.memory.grow ((Wasm.top c.frame.stack).toNat * 65536)
              frame := { c.frame with
                code := rest, stack := UInt32.ofNat c.memory.pages :: c.frame.stack.tail } })) ∧
      (config.maxMemoryBytes < (Wasm.Instance.memoryExtent m).least * 65536 →
        d.guest = none ∧ ∀ p, (d.instantiate p).1 ≠ .ok ()) := by
  obtain ⟨rfl, hle⟩ := Wasm.engineFor_eq_ok hengine
  have hlife : ∀ i, d.guest = some i → ∃ r ms,
      Wasm.Instance.Life (.ofConfig config) m d.linked (.new r config.logLimits) ms i :=
    fun i hi => h.holds (kept_life (.ofConfig config) registry config) m i hm hi
  refine ⟨rfl, hle, rfl, hlife, fun context ms i hi => ⟨fun memory hmemory => ?_, ?_, ?_⟩, ?_⟩
  · obtain ⟨hwhole, hcapacity⟩ := hi.grown.within memory hmemory
    refine ⟨hwhole, hcapacity, fun k hk => ?_⟩
    exact Memory.exists_read hk (Nat.le_trans hcapacity hle)
  · exact hi.grown.pairwise
  · intro c rest hc hcode
    exact hi.step_memoryGrow hc hcode
  · intro hlarge
    refine ⟨?_, instantiate_ne_ok h.coherent.1 hm hlarge⟩
    cases hguest : d.guest with
    | none => rfl
    | some i =>
      obtain ⟨r, ms, hi⟩ := hlife i hguest
      obtain ⟨made, hmade⟩ := hi.exists_made
      exact absurd (Wasm.Instance.capacity_of_prepare hmade).2 (Nat.not_le.2 hlarge)

/-- The settings under which a guest is given three pages, and fuel for ten instructions. -/
def cappedConfig : Config := { Config.standard with maxMemoryPages := 3, fuelLimit := 10 }

/-- The driver with an instance of the module that grows, for a reason. -/
def cappedReady (reason : ByteArray) : Driver Wasm.Source Wasm.Module Wasm.Instance :=
  { (new (Wasm.engine Wasm.growingBudget) growingRegistry cappedConfig).accept Wasm.growing with
    linked := [Wasm.tell]
    state := .ready
    reason := some reason
    guest := some (Wasm.growingInstance 1 (Wasm.pagesContext reason 1)) }

/-- The driver can come about. -/
lemma reachable_cappedReady : ∃ r,
    Reachable (Wasm.engine Wasm.growingBudget) growingRegistry cappedConfig (cappedReady r) := by
  obtain ⟨r, hr⟩ : ∃ r, (Payload.ofTransfer none ⟨none, 1⟩).encode = .ok r :=
    ⟨_, Payload.encode_eq_ok rfl⟩
  have hlinked := @reachable_linked _ _ _ (Wasm.engine Wasm.growingBudget) growingRegistry
    cappedConfig _ _ _ Wasm.ofSource_growing rfl
  exact ⟨r, hlinked.ready rfl rfl hr (Wasm.new_growing r)⟩

/-- After two calls the memory of the guest has three pages. -/
lemma life_growing (r : ByteArray) : ∃ ms, Wasm.Instance.Life Wasm.growingBudget Wasm.growing
    [Wasm.tell] (.new r .standard) ms (Wasm.growingInstance 3 (.new r .standard)) := by
  have hcalled : ∀ k < 3, ∀ ms, Wasm.Instance.Life Wasm.growingBudget Wasm.growing [Wasm.tell]
      (.new r .standard) ms (Wasm.growingInstance k (.new r .standard)) →
        ∃ ms', Wasm.Instance.Life Wasm.growingBudget Wasm.growing [Wasm.tell]
          (.new r .standard) ms' (Wasm.growingInstance (k + 1) (.new r .standard)) := by
    intro k hk ms hlife
    have hnext := hlife.called "main"
    rw [Wasm.call_growing r hk] at hnext
    exact ⟨_, hnext.holding .empty⟩
  obtain ⟨made, hmade, hstart, _⟩ := Wasm.Instance.new_eq_ok_iff.1 (Wasm.new_growing r)
  have hone := (Wasm.Instance.Life.made hmade).started
  rw [← Wasm.Instance.eq_started hstart] at hone
  obtain ⟨_, htwo⟩ := hcalled 1 (by decide) _ (hone.holding .empty)
  exact hcalled 2 (by decide) _ htwo

/-- In a call the guest makes its first step, and then asks for a page. -/
lemma path_growing (context : Context) (k : Nat) :
    (Wasm.growingInstance k context).path "main" =
      Wasm.Program.machine Wasm.grow 10 (.zeros (k * pageSize)) context ::
        (Wasm.growAt 8 k context [.memoryGrow, .drop, .memorySize, .call 0] [1]).path
          Wasm.growingProgram := by
  have hconst : (Wasm.Program.machine Wasm.grow 10 (.zeros (k * pageSize)) context).step
      Wasm.growingProgram =
        .next (Wasm.growAt 8 k context [.memoryGrow, .drop, .memorySize, .call 0] [1]) := rfl
  exact Wasm.Machine.path_of_next hconst

/-- With three pages the guest comes to a place where it asks for one more. -/
lemma mem_path_growing (context : Context) :
    Wasm.growAt 8 3 context [.memoryGrow, .drop, .memorySize, .call 0] [1] ∈
      (Wasm.growingInstance 3 context).path "main" := by
  rw [path_growing, Wasm.Machine.path]
  exact List.mem_cons_of_mem _ List.mem_cons_self

/-- A guest that may have three pages has them after two calls.  In the next one it asks for a
fourth, and is told minus one; and the last byte of the three pages can be read. -/
theorem memory_within_cap_growing :
    ∃ r ms, Reachable (Wasm.engine Wasm.growingBudget) growingRegistry cappedConfig
        (cappedReady r) ∧
      Wasm.Instance.Life Wasm.growingBudget Wasm.growing [Wasm.tell] (.new r .standard) ms
        (Wasm.growingInstance 3 (.new r .standard)) ∧
      (Wasm.growingInstance 3 (.new r .standard)).memory.capacity =
        cappedConfig.maxMemoryBytes ∧
      (∃ c ∈ (Wasm.growingInstance 3 (.new r .standard)).path "main",
        c.step Wasm.growingProgram = .next { c with
          fuel := c.fuel - 1
          frame := { c.frame with
            code := [.drop, .memorySize, .call 0], stack := [Wasm.minusOne] } }) ∧
      ∃ (offset : Int32) (byte : UInt8), offset.toInt = 3 * 65536 - 1 ∧
        (Wasm.growingInstance 3 (.new r .standard)).memory.read offset 1 = .ok ⟨#[byte]⟩ := by
  obtain ⟨r, hreachable⟩ := reachable_cappedReady
  obtain ⟨ms, hlife⟩ := life_growing r
  have hengine : Wasm.engineFor cappedConfig = .ok (Wasm.engine Wasm.growingBudget) := rfl
  obtain ⟨_, _, _, _, hlives, _⟩ := memory_within_cap hengine hreachable rfl
  obtain ⟨hmemories, _, hgrow⟩ := hlives _ _ _ hlife
  have hcapacity : (Wasm.growingInstance 3 (.new r .standard)).memory.capacity = 3 * 65536 :=
    Memory.capacity_zeros _
  have hpath := mem_path_growing (.new r .standard)
  refine ⟨r, ms, hreachable, hlife, hcapacity, ⟨_, hpath, ?_⟩, ?_⟩
  · refine (hgrow _ _ (Or.inr ⟨"main", hpath⟩) rfl).1 ?_
    have hat : (Wasm.growAt 8 3 (.new r .standard) [.memoryGrow, .drop, .memorySize, .call 0]
        [1]).memory.capacity = 3 * 65536 := hcapacity
    rw [hat]
    show 3 * 65536 < 3 * 65536 + 1 * 65536
    decide
  · obtain ⟨_, _, hread⟩ := hmemories _ (List.mem_append_right _ List.mem_cons_self)
    obtain ⟨offset, byte, _, hoffset, _, hbyte⟩ := hread (3 * 65536 - 1) (by rw [hcapacity]; decide)
    exact ⟨offset, byte, hoffset, hbyte⟩

end Driver

end ContractHost
