import ContractHost.Proofs.Driver.Dispatch

/-!
# How many arguments host functions are given

A guest that calls a host function takes as many operands as the function declares, so the function
is given as many arguments.  A host function that is called without a guest in between is given
none; but then it is an entry point or a start function, and declares none.  So whatever an instance
of a compiled module calls, it calls with the declared number of arguments
(`Instance.MadeOf.isFull_of_mem_hostCalls`, `Instance.MadeOf.isFull_of_mem_startCalls`).
-/

namespace ContractHost.Wasm

/-- The function is given as many arguments as it declares. -/
def HostCall.IsFull (call : HostCall) : Prop :=
  call.arguments.length = call.binding.signature.params

/-- As many arguments are taken as were asked for. -/
lemma length_takeArguments (n : Nat) (stack : List UInt32) :
    (takeArguments n stack).1.length = n := by
  simp only [takeArguments, List.length_reverse, List.length_append, List.length_take,
    List.length_replicate]
  omega

/-- A machine gives a host function as many arguments as it declares. -/
lemma Machine.isFull_of_hostCall? {p : Program} {m : Machine} {call : HostCall}
    (h : m.hostCall? p = some call) : call.IsFull := by
  unfold hostCall? at h
  split at h
  · split at h
    next b _ =>
      cases h
      exact (List.length_map _).trans (length_takeArguments b.signature.params m.frame.stack)
    next => cases h
  · cases h

/-- So do all machines on the way to the end. -/
lemma Machine.isFull_of_mem_hostCalls (p : Program) (m : Machine) :
    ∀ call ∈ m.hostCalls p, call.IsFull := by
  intro call hcall
  rw [hostCalls_eq_filterMap] at hcall
  obtain ⟨c, _, hmade⟩ := List.mem_filterMap.1 hcall
  exact isFull_of_hostCall? hmade

namespace Program

variable {p : Program} {index : Nat}

/-- A host function that stands where a function without parameters should has none itself. -/
lemma Fits.params_eq_zero {types : List FunctionType} {t : FunctionType} {b : Binding}
    (h : p.Fits types) (ht : types[index]? = some t) (hparams : t.params.length = 0)
    (hb : p.callee? index = some (.host b)) : b.signature.params = 0 := by
  rcases h index t ht with ⟨b', hb', hsignature⟩ | ⟨f, _, hf, _⟩
  · cases hb.symm.trans hb'
    rw [hsignature]
    exact hparams
  · cases hb.symm.trans hf

/-- An exported function calls host functions with as many arguments as they declare, unless it is
itself a host function that declares some. -/
lemma isFull_of_mem_exportCalls (h : ∀ b, p.callee? index = some (.host b) → b.signature.params = 0)
    (fuel : Nat) (memory : Memory) (context : Context) :
    ∀ call ∈ p.exportCalls index fuel memory context, call.IsFull := by
  intro call hcall
  unfold exportCalls at hcall
  split at hcall
  · cases hcall
  next b hb =>
    rw [List.mem_singleton.1 hcall]
    exact (h b hb).symm
  · split at hcall
    · cases hcall
    · exact Machine.isFull_of_mem_hostCalls p _ call hcall

/-- So does the start function. -/
lemma isFull_of_mem_startCalls (h : ∀ b, p.callee? index = some (.host b) → b.signature.params = 0)
    (fuel : Nat) (memory : Memory) (context : Context) :
    ∀ call ∈ p.startCalls index fuel memory context, call.IsFull := by
  intro call hcall
  unfold startCalls at hcall
  split at hcall
  next b hb =>
    rw [List.mem_singleton.1 hcall]
    exact (h b hb).symm
  · exact isFull_of_mem_exportCalls h fuel memory context call hcall

end Program

namespace Instance

variable {budget : Budget} {m : Module} {bs : List Binding} {description : Description}
  {i : Instance} {call : HostCall}

/-- A function that a host knows as an entry point takes no value. -/
lemma exists_functionType {index : Nat}
    (h : functionType m index = .function entrySignature) :
    ∃ t, m.description.functionTypes[index]? = some t ∧ t.params.length = 0 := by
  unfold functionType at h
  split at h
  next t ht =>
    have hdeclared : (ImportType.function t).declared = .function entrySignature := h
    obtain ⟨t', htype, hsignature⟩ := ImportType.eq_function hdeclared
    cases htype
    exact ⟨t, ht, (congrArg Signature.params hsignature).symm⟩
  · cases h

/-- In a call of an exported function host functions are given as many arguments as they declare. -/
theorem MadeOf.isFull_of_mem_hostCalls (h : i.MadeOf budget m bs)
    (hcompile : description.compile = some m) {name : String} (hcall : call ∈ i.hostCalls name) :
    call.IsFull := by
  unfold hostCalls at hcall
  split at hcall
  · cases hcall
  next index _ =>
    split at hcall
    next htype =>
      rw [h.module_eq] at htype
      obtain ⟨t, ht, hparams⟩ := exists_functionType htype
      exact Program.isFull_of_mem_exportCalls
        (fun _ => (h.fits hcompile).params_eq_zero ht hparams) _ _ _ call hcall
    · cases hcall

/-- When an instance starts, host functions are given as many arguments as they declare. -/
theorem MadeOf.isFull_of_mem_startCalls (h : i.MadeOf budget m bs)
    (hcompile : description.compile = some m) (hcall : call ∈ i.startCalls) : call.IsFull := by
  unfold startCalls at hcall
  split at hcall
  · cases hcall
  next index hindex =>
    rw [h.module_eq] at hindex
    have ht := Description.functionTypes_of_start hcompile hindex
    exact Program.isFull_of_mem_startCalls
      (fun _ => (h.fits hcompile).params_eq_zero ht rfl) _ _ _ call hcall

end Instance

end ContractHost.Wasm
