import ContractHost.Proofs.Reason.TransferBack

/-!
# The amount is sent back

However a host has come by an instance of the contract for a reason, it is as a new one in all that
a call depends on, the log and the fuel apart (`Serving.ready`): the module, the memory of one page,
the tag in its place, and the reason.  Calls keep this because a call only writes to the beginning
of the memory and from where the reason goes (`Outcome.kept`).  So every call ends as a run of the
entry point can end, and for a reason that was written for a payload what is sent are the digits of
its amount (`sends_amount`).
-/

namespace ContractHost.TransferBack

open Wasm Bridge

variable {budget : Budget} {r : ByteArray} {i : Instance} {front digits : List UInt8}

/-- The instances of the contract that a host has for a reason: a new one, and what becomes of it
when it is called, when its log is taken, and when the host writes to its memory without spoiling
the tag. -/
inductive Serving (budget : Budget) (r : ByteArray) : Instance → Prop
  | new {m : Module} {bs : List Binding} {limits : LogLimits} {i : Instance}
    (hload : Module.ofSource (.description description) = .ok m)
    (hlink : Bridge.registry.link m.imports = .ok bs)
    (h : Instance.new budget m bs (.new r limits) = .ok i) : Serving budget r i
  | called {i : Instance} (h : Serving budget r i) (name : String) :
    Serving budget r (i.call name).2
  | holding {i : Instance} (h : Serving budget r i) (log : Log) : Serving budget r (i.holding log)
  | written {i : Instance} {offset : Int32} {data : ByteArray} {memory : Memory}
    (h : Serving budget r i) (hwrite : i.memory.write offset data = .ok memory)
    (htag : memory.Holds 1024 8 tag.toUTF8) : Serving budget r { i with memory := memory }

/-- What is the same for all of them. -/
structure Ready (budget : Budget) (r : ByteArray) (i : Instance) : Prop where
  /-- The module is the contract. -/
  module_eq : i.module = contract
  /-- The budget is the one given. -/
  budget_eq : i.budget = budget
  /-- The functions are those of the bridge and the entry point. -/
  program_eq : ∃ limiter, i.program = program limiter
  /-- The memory has one page. -/
  capacity_eq : i.memory.capacity = pageSize
  /-- The tag stands in its place. -/
  holds_tag : i.memory.Holds 1024 8 tag.toUTF8
  /-- The reason is the one given. -/
  reason_eq : i.context.reason = r

/-- A memory of one page has room for the tag. -/
lemma fill_description {memory : Memory} (hcapacity : memory.capacity = pageSize) :
    Instance.fill description.data memory = .ok (memory.splice 1024 tag.toUTF8) := by
  have hroom : 1024 + tag.toUTF8.size ≤ memory.capacity := by
    rw [hcapacity]
    decide
  have hput : put? memory 1024 tag.toUTF8 = some (memory.splice 1024 tag.toUTF8) := if_pos hroom
  simp only [description, Instance.fill, hput]

/-- The tag stands in its place then. -/
lemma holds_tag_of_fill {memory filled : Memory} (hcapacity : memory.capacity = pageSize)
    (h : Instance.fill description.data memory = .ok filled) :
    filled.Holds 1024 8 tag.toUTF8 := by
  have hwrite : memory.write 1024 tag.toUTF8 = .ok (memory.splice 1024 tag.toUTF8) := by
    refine Memory.write_eq_ok_iff.2 ⟨⟨by decide, by decide, ?_⟩, rfl⟩
    rw [hcapacity]
    decide
  obtain rfl := Except.ok.inj ((fill_description hcapacity).symm.trans h)
  exact Memory.holds_of_write hwrite

/-- A new instance is ready. -/
lemma ready_of_new {m : Module} {bs : List Binding} {limits : LogLimits}
    (hload : Module.ofSource (.description description) = .ok m)
    (hlink : Bridge.registry.link m.imports = .ok bs)
    (h : Instance.new budget m bs (.new r limits) = .ok i) : Ready budget r i := by
  obtain rfl : contract = m := Except.ok.inj (ofSource_description.symm.trans hload)
  obtain ⟨made, hmade, hstart, -⟩ := Instance.new_eq_ok_iff.1 h
  obtain ⟨hcapacity, -⟩ := Instance.capacity_of_prepare hmade
  obtain ⟨imports, memory, filled, himports, hmemory, hfill, rfl⟩ :=
    Instance.prepare_eq_ok_iff.1 hmade
  obtain rfl := Instance.eq_of_resolveImports hlink himports
  obtain rfl : bindings = imports := Except.ok.inj (link_contract.symm.trans hlink)
  obtain rfl := Except.ok.inj hstart
  have hpage : filled.capacity = pageSize := hcapacity
  refine ⟨rfl, rfl, ⟨_, rfl⟩, hpage, ?_, rfl⟩
  exact holds_tag_of_fill ((Instance.capacity_fill hfill).symm.trans hpage) hfill

/-- With a page of memory there is an instance for every reason. -/
lemma exists_serving (budget : Budget) (hbudget : pageSize ≤ budget.memoryBytes) (r : ByteArray)
    (limits : LogLimits) : ∃ i, Serving budget r i ∧ i.context = .new r limits := by
  have himports : Instance.resolveImports contract bindings = .ok bindings := rfl
  have hmemory : Instance.newMemory contract budget = .ok (.zeros (1 * pageSize)) := by
    refine Instance.newMemory_of_le ?_
    change 1 * pageSize ≤ _
    omega
  have hfill := fill_description ((Memory.capacity_zeros _).trans (Nat.one_mul pageSize))
  exact ⟨_, .new ofSource_description link_contract (Instance.new_eq_ok_iff.2
    ⟨_, Instance.prepare_eq_ok_iff.2 ⟨_, _, _, himports, hmemory, hfill, rfl⟩, rfl, rfl⟩), rfl⟩

/-- Recording keeps the reason. -/
lemma reason_recording (context : Context) (record : Record) :
    (recording context record).1.reason = context.reason := by
  unfold recording
  cases hrecord : context.record sendTransactionName record with
  | error e => rfl
  | ok context' =>
    obtain ⟨-, rfl⟩ := Context.record_eq_ok_iff.1 hrecord
    rfl

/-- However a call ends, it keeps the capacity, what stands between the length and the reason, and
the reason that the host holds. -/
lemma Outcome.kept {fuel : Nat} {memory : Memory} {context : Context} {calls : List HostCall}
    {halt : Halt} (h : Outcome fuel memory context front digits calls halt)
    (hcapacity : memory.capacity = pageSize) :
    halt.memory.capacity = memory.capacity ∧
      (∀ k, 4 ≤ k → k < 2048 → halt.memory.bytes[k]? = memory.bytes[k]?) ∧
      halt.context.reason = context.reason := by
  have hroom : 4 ≤ memory.capacity := by
    rw [hcapacity]
    decide
  cases h with
  | idle _ => exact ⟨rfl, fun _ _ _ => rfl, rfl⟩
  | tooLarge _ _ => exact ⟨rfl, fun _ _ _ => rfl, rfl⟩
  | tooLong _ _ _ =>
    exact ⟨capacity_measured hroom _, fun _ hk _ => getElem?_measured hroom hk, rfl⟩
  | exhausted _ hfits _ =>
    exact ⟨capacity_copied hfits, fun _ hk hk' => getElem?_copied_between hfits hk hk', rfl⟩
  | sent _ hfits _ =>
    exact ⟨capacity_copied hfits, fun _ hk hk' => getElem?_copied_between hfits hk hk',
      reason_recording _ _⟩

namespace Ready

/-- The entry point is the function behind the four imports. -/
lemma exportedFunction?_entry (h : Ready budget r i) :
    i.module.exportedFunction? entry = some 4 := by
  rw [h.module_eq]
  rfl

/-- Nothing else can be called. -/
lemma exportedFunction?_of_ne (h : Ready budget r i) {name : String} (hname : name ≠ entry) :
    i.module.exportedFunction? name = none := by
  rw [h.module_eq]
  simp [Module.exportedFunction?, contract, description, Ne.symm hname]

/-- A call of the entry point ends as its run does. -/
lemma exists_outcome (h : Ready budget r i) (hr : EndsWith r front digits) :
    ∃ calls halt, Outcome budget.fuel i.memory i.context front digits calls halt ∧
      i.call entry = (halt.answer, i.absorb halt) ∧ i.hostCalls entry = calls := by
  obtain ⟨limiter, hprogram⟩ := h.program_eq
  obtain rfl := h.reason_eq
  obtain rfl := h.budget_eq
  have htype : Instance.functionType i.module 4 = .function entrySignature := by
    rw [h.module_eq]
    rfl
  have hcallee : i.program.callee? 4 = some (.guest entryPoint) := by
    rw [hprogram]
    rfl
  rcases Nat.eq_zero_or_pos i.budget.fuel with hzero | hpos
  · exact ⟨[], _, .idle hzero,
      Instance.call_of_fuel_eq_zero h.exportedFunction?_entry htype hcallee hzero⟩
  · obtain ⟨calls, halt, houtcome, hends⟩ :=
      hr.exists_outcome limiter hpos h.capacity_eq h.holds_tag
    rw [← hprogram] at hends
    exact ⟨calls, halt, houtcome, Instance.call_of_endsIn h.exportedFunction?_entry htype hcallee
      (Nat.ne_of_gt hpos) hends⟩

/-- An instance that is ready is so after a call. -/
lemma call (h : Ready budget r i) (hr : EndsWith r front digits) (name : String) :
    Ready budget r (i.call name).2 := by
  by_cases hname : name = entry
  · obtain ⟨calls, halt, houtcome, hcall, -⟩ := h.exists_outcome hr
    obtain ⟨hcapacity, hagree, hreason⟩ := houtcome.kept h.capacity_eq
    rw [hname, hcall]
    exact ⟨h.module_eq, h.budget_eq, h.program_eq, hcapacity.trans h.capacity_eq,
      holds_tag_of_agree h.holds_tag hcapacity hagree, hreason.trans h.reason_eq⟩
  · have hnone := h.exportedFunction?_of_ne hname
    simp only [Instance.call, hnone]
    exact ⟨h.module_eq, h.budget_eq, h.program_eq, h.capacity_eq, h.holds_tag, h.reason_eq⟩

end Ready

/-- All instances that a host has for such a reason are ready. -/
lemma Serving.ready (h : Serving budget r i) (hr : EndsWith r front digits) :
    Ready budget r i := by
  -- Only a call can change more than the log and the bytes that the host writes.
  induction h with
  | new hload hlink h => exact ready_of_new hload hlink h
  | called _ name ih => exact ih.call hr name
  | holding _ _ ih =>
    exact ⟨ih.module_eq, ih.budget_eq, ih.program_eq, ih.capacity_eq, ih.holds_tag, ih.reason_eq⟩
  | written _ hwrite htag ih =>
    exact ⟨ih.module_eq, ih.budget_eq, ih.program_eq,
      (Memory.capacity_write hwrite).trans ih.capacity_eq, htag, ih.reason_eq⟩

/-- However a call ends, the guest does not run into a trap. -/
lemma Outcome.not_trapped {fuel : Nat} {memory : Memory} {context : Context}
    {calls : List HostCall} {halt : Halt}
    (h : Outcome fuel memory context front digits calls halt) (t : Trap) :
    halt.stop ≠ .trapped t := by
  cases h with
  | sent _ _ _ =>
    unfold recording
    cases context.record sendTransactionName (.transaction tag ⟨digits.toArray⟩) with
    | error e => exact Stop.noConfusion
    | ok context' => exact Stop.noConfusion
  | idle _ | tooLarge _ _ | tooLong _ _ _ | exhausted _ _ _ => exact Stop.noConfusion

/-- With room for the reason, the fuel alone decides whether the digits are sent. -/
lemma Outcome.of_fits {fuel : Nat} {memory : Memory} {context : Context} {calls : List HostCall}
    {halt : Halt} (h : Outcome fuel memory context front digits calls halt) (hfuel : 0 < fuel)
    (hcapacity : memory.capacity = pageSize)
    (hfits : 2048 + context.reason.size ≤ pageSize) :
    15 + 12 * digits.length < fuel ∧
        (halt.context, halt.stop) = recording context (.transaction tag ⟨digits.toArray⟩) ∨
      fuel ≤ 15 + 12 * digits.length ∧ halt.stop = .fuelExhausted := by
  have hpage : pageSize = 65536 := rfl
  have hword : Context.maxInt32 = 2147483647 := rfl
  cases h with
  | idle hzero => omega
  | tooLarge _ hlarge => omega
  | tooLong _ _ hlong => omega
  | exhausted _ _ hlittle => exact Or.inr ⟨hlittle, rfl⟩
  | sent hmuch _ _ => exact Or.inl ⟨hmuch, rfl⟩

/-- The amount can be found from the end of a reason, and the contract finds it.  What is written
for a reason consists of visible characters; it ends with a colon, the digits of the amount without
a sign and without zeros in front, and two braces, and there is no colon among the digits.  Whatever
instance of the contract a host has for the reason, and whatever its budget: a call of the entry
point never runs into a trap, so the scan finds the colon, and what it sends are the bytes from
where the digits stand behind the last colon to the braces, which are the digits.  It sends them
just if there is room for the reason and enough fuel for the scan; otherwise the call ends before,
because a host function refuses or for want of fuel. -/
theorem sends_amount {p : Payload} (hencode : p.encode = .ok r) :
    ∃ front digits : List UInt8,
      EndsWith r front digits ∧ Json.Visible r.data.toList ∧
      Decimal.IsNumeral p.amount.toNat digits ∧
      ∀ budget i, Serving budget r i →
        ∃ calls halt, i.call entry = (halt.answer, i.absorb halt) ∧ i.hostCalls entry = calls ∧
          Outcome budget.fuel i.memory i.context front digits calls halt ∧
          ∀ t, halt.stop ≠ .trapped t := by
  obtain ⟨hkind, rfl⟩ := Payload.encode_eq_ok_iff.1 hencode
  obtain ⟨front, hfront⟩ := p.bytes_eq_append
  have hnumeral := Decimal.isNumeral_natBytes p.amount.toNat
  have hends : EndsWith ⟨p.bytes.toArray⟩ front (Decimal.natBytes p.amount.toNat) :=
    ⟨hfront, fun hcolon => absurd (hnumeral.isDigit_eq _ hcolon) (by decide)⟩
  refine ⟨front, _, hends, Payload.visible_bytes hkind, hnumeral, fun budget i hserving => ?_⟩
  obtain ⟨calls, halt, houtcome, hcall, hcalls⟩ := (hserving.ready hends).exists_outcome hends
  exact ⟨calls, halt, hcall, hcalls, houtcome, houtcome.not_trapped⟩

/-- The reason whose amount is one, without senders, ends with one digit.  Fuel of 28 is enough to
send it, and the log has it then; with one unit less the call ends for want of fuel. -/
theorem sends_amount_sample : sampleReason.encode = .ok sampleText ∧
    (∃ i, Serving ⟨28, pageSize⟩ sampleText i ∧ (i.call entry).1 = .ok () ∧
      (i.call entry).2.context.log = Log.empty.push (.transaction "transfer" "1".toUTF8)) ∧
    ∃ i, Serving ⟨27, pageSize⟩ sampleText i ∧ (i.call entry).1 = .error .fuelExhausted := by
  obtain ⟨front, digits, hends, -, -, hserves⟩ := sends_amount encode_sampleReason
  have hdigits : digits = [49] := hends.eq_reverse_takeWhile.trans (by decide)
  subst hdigits
  have hfits : 2048 + sampleText.size ≤ pageSize := by decide
  refine ⟨encode_sampleReason, ?_, ?_⟩
  · obtain ⟨i, hserving, hcontext⟩ :=
      exists_serving ⟨28, pageSize⟩ (Nat.le_refl _) sampleText .standard
    obtain ⟨calls, halt, hcall, -, houtcome, -⟩ := hserves _ i hserving
    rw [hcontext] at houtcome
    refine ⟨i, hserving, ?_⟩
    rw [hcall]
    rcases houtcome.of_fits (by decide) (hserving.ready hends).capacity_eq hfits with
      ⟨-, hsent⟩ | ⟨hlittle, -⟩
    · obtain ⟨hlog, hstop⟩ := Prod.mk.inj hsent
      refine ⟨?_, ?_⟩
      · rw [Halt.answer, hstop]
        rfl
      · rw [Instance.absorb, hlog]
        rfl
    · exact absurd hlittle (by decide)
  · obtain ⟨i, hserving, hcontext⟩ :=
      exists_serving ⟨27, pageSize⟩ (Nat.le_refl _) sampleText .standard
    obtain ⟨calls, halt, hcall, -, houtcome, -⟩ := hserves _ i hserving
    rw [hcontext] at houtcome
    refine ⟨i, hserving, ?_⟩
    rw [hcall]
    rcases houtcome.of_fits (by decide) (hserving.ready hends).capacity_eq hfits with
      ⟨hmuch, -⟩ | ⟨-, hstop⟩
    · exact absurd hmuch (by decide)
    · rw [Halt.answer, hstop]
      rfl

end ContractHost.TransferBack
