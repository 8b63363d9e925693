import ContractHost.Proofs.Driver.Capacity
import ContractHost.Proofs.Import.Registration
import ContractHost.Proofs.Wasm.Failure
import ContractHost.Proofs.Wasm.Operands

/-!
# Which function a guest calls

A guest names an import by its place in the list of imports.  On the way to the host function stand
the registry, which knows functions by their names, the linked functions, in the order of the
imports, and the program of the instance.  Whatever was registered in which order, the guest calls
the function that was registered last under the name of the import, with its own operands, and goes
on with what that function left (`Driver.calls_dispatch`).
-/

namespace ContractHost

namespace Wasm

/-! ## The program of an instance -/

/-- An index among the imports is that of a host function. -/
lemma Program.callee?_host {p : Program} {index : Nat} {b : Binding}
    (h : p.imports[index]? = some b) : p.callee? index = some (.host b) := by
  obtain ⟨hlt, _⟩ := Array.getElem?_eq_some_iff.1 h
  rw [callee?, if_pos hlt, h]
  rfl

/-- An index behind the imports is that of a function of the guest. -/
lemma Program.callee?_guest {p : Program} {index : Nat} {f : Function}
    (hge : p.imports.size ≤ index) (h : p.functions[index - p.imports.size]? = some f) :
    p.callee? index = some (.guest f) := by
  rw [callee?, if_neg (Nat.not_lt.2 hge), h]
  rfl

/-- A function that is ready to run has the type of its text, and its body is well typed. -/
lemma Description.compileFunction_eq_some {d : Description} {text : FunctionText} {f : Function}
    (h : d.compileFunction text = some f) :
    f.params = text.type.params.length ∧ f.results = text.type.results.length ∧
      isWellTyped (d.scope text) f.body = true := by
  unfold compileFunction at h
  obtain ⟨body, _, h⟩ := Option.bind_eq_some_iff.1 h
  split at h
  next htyped =>
    cases h
    exact ⟨rfl, rfl, htyped⟩
  · cases h

/-- The start function of a compiled module neither takes nor gives a value. -/
lemma Description.functionTypes_of_start {description : Description} {m : Module} {index : Nat}
    (hcompile : description.compile = some m) (hindex : m.description.start = some index) :
    m.description.functionTypes[index]? = some ⟨[], []⟩ := by
  unfold Description.compile at hcompile
  split at hcompile
  next hvalid =>
    obtain ⟨_, _, rfl⟩ := Option.map_eq_some_iff.1 hcompile
    have hall := (Bool.and_eq_true_iff.1 hvalid).2
    rw [hindex] at hall
    exact eq_of_beq hall
  · cases hcompile

/-- A list is gone through just if each of its elements gives something. -/
lemma forall₂_of_mapM {α β : Type} {f : α → Option β} {xs : List α} {ys : List β}
    (h : xs.mapM f = some ys) : List.Forall₂ (fun x y => f x = some y) xs ys := by
  induction xs generalizing ys with
  | nil =>
    rw [List.mapM_nil] at h
    cases h
    exact .nil
  | cons x xs ih =>
    rw [List.mapM_cons] at h
    obtain ⟨y, hy, h⟩ := Option.bind_eq_some_iff.1 h
    obtain ⟨ys', hys', h⟩ := Option.bind_eq_some_iff.1 h
    cases h
    exact .cons hy (ih hys')

/-- A type that a host knows as a function over words has that many parameters and results. -/
lemma ImportType.eq_function {type : ImportType} {s : Signature}
    (h : type.declared = .function s) :
    ∃ t, type = .function t ∧ s = ⟨t.params.length, t.results.length⟩ := by
  cases type with
  | function t =>
    simp only [declared, FunctionType.declared] at h
    split at h
    · cases h
      exact ⟨t, rfl, rfl⟩
    · cases h
  | memory _ => cases h
  | table _ => cases h
  | global => cases h

namespace Instance

variable {budget : Budget} {m : Module} {bs : List Binding} {i : Instance} {r : Registry}
  {imports : List Binding} {name : String} {c : Machine} {halt : Halt} {e : SandboxError}

/-- The functions that are found for the imports have their types. -/
lemma forall₂_of_resolveImports (h : resolveImports m bs = .ok imports) :
    List.Forall₂ (fun (x : Import) b => x.type.declared = .function b.signature)
      m.description.imports imports := by
  unfold resolveImports at h
  split at h
  · cases h
  · have hall := mapM_eq_ok_iff.1 h
    rw [Module.imports, List.forall₂_map_left_iff] at hall
    refine hall.imp fun x b hb => ?_
    unfold bindingFor at hb
    split at hb
    · cases hb
    · split at hb
      next htype =>
        cases hb
        exact htype
      · cases hb

/-- All imports are functions, and the functions that were found have their signatures. -/
lemma forall₂_importedFunctions (h : resolveImports m bs = .ok imports) :
    List.Forall₂ (fun (t : FunctionType) b => b.signature = ⟨t.params.length, t.results.length⟩)
      m.description.importedFunctions imports := by
  have hall := forall₂_of_resolveImports h
  unfold Description.importedFunctions
  generalize m.description.imports = xs at hall
  clear h
  induction hall with
  | nil => exact .nil
  | @cons x b xs bs hfirst _ ih =>
    obtain ⟨t, htype, hsignature⟩ := ImportType.eq_function hfirst
    rw [List.filterMap_cons, htype]
    exact .cons hsignature ih

/-- The functions of an instance have the types that its module says. -/
lemma MadeOf.fits {description : Description} (h : i.MadeOf budget m bs)
    (hcompile : description.compile = some m) :
    i.program.Fits m.description.functionTypes := by
  obtain ⟨imports, himports, hprogram⟩ := h.program_eq
  have hfound := forall₂_importedFunctions himports
  unfold Description.compile at hcompile
  split at hcompile
  · obtain ⟨fs, hfs, rfl⟩ := Option.map_eq_some_iff.1 hcompile
    have hcompiled := forall₂_of_mapM hfs
    have hsize : i.program.imports.size = description.importedFunctions.length := by
      rw [hprogram, hfound.length_eq]
      rfl
    intro index t ht
    dsimp only at ht hfound
    rw [Description.functionTypes] at ht
    by_cases hlt : index < description.importedFunctions.length
    · have hlt' : index < imports.length := hfound.length_eq ▸ hlt
      rw [List.getElem?_append_left hlt, List.getElem?_eq_getElem hlt] at ht
      cases ht
      refine Or.inl ⟨imports[index], Program.callee?_host ?_, hfound.get hlt hlt'⟩
      rw [hprogram, programOf, List.getElem?_toArray]
      exact List.getElem?_eq_getElem hlt'
    · have hge : description.importedFunctions.length ≤ index := Nat.le_of_not_lt hlt
      rw [List.getElem?_append_right hge, List.getElem?_map] at ht
      obtain ⟨text, htext, rfl⟩ := Option.map_eq_some_iff.1 ht
      obtain ⟨hk, rfl⟩ := List.getElem?_eq_some_iff.1 htext
      have hk' : index - description.importedFunctions.length < fs.length :=
        hcompiled.length_eq ▸ hk
      obtain ⟨hparams, hresults, htyped⟩ :=
        Description.compileFunction_eq_some (hcompiled.get hk hk')
      refine Or.inr ⟨_, _, Program.callee?_guest (hsize ▸ hge) ?_, hparams, hresults, rfl,
        hresults.symm, htyped⟩
      rw [hsize, hprogram, programOf, List.getElem?_toArray]
      exact List.getElem?_eq_getElem hk'
  · cases hcompile

/-- With functions that were linked, an instance finds the very same ones. -/
lemma eq_of_resolveImports (hlink : r.link m.imports = .ok bs)
    (h : resolveImports m bs = .ok imports) : imports = bs := by
  by_cases hnodup : (bs.map Binding.key).Nodup
  · rw [Registry.keys_of_link hlink] at hnodup
    exact Except.ok.inj (h.symm.trans ((resolveImports_of_link hlink).2 hnodup))
  · obtain ⟨b, _, hb⟩ := resolveImports_of_not_nodup (m := m) hnodup
    cases h.symm.trans hb

/-- A declared import has the index of the function that it was linked to, and its place among the
types of all functions. -/
lemma MadeOf.callee?_of_link {k : Nat} {decl : ImportDecl} (h : i.MadeOf budget m bs)
    (hlink : r.link m.imports = .ok bs) (hdecl : m.imports[k]? = some decl) :
    ∃ b, r.linkOne decl = .ok b ∧ i.program.callee? k = some (.host b) ∧
      ∃ t, m.description.functionTypes[k]? = some t ∧ b.signature.params = t.params.length := by
  obtain ⟨imports, himports, hprogram⟩ := h.program_eq
  obtain rfl := eq_of_resolveImports hlink himports
  have hlinked := mapM_eq_ok_iff.1 hlink
  have hfound := forall₂_importedFunctions himports
  obtain ⟨hk, rfl⟩ := List.getElem?_eq_some_iff.1 hdecl
  have hk' : k < imports.length := hlinked.length_eq ▸ hk
  have hk'' : k < m.description.importedFunctions.length := hfound.length_eq ▸ hk'
  refine ⟨imports[k], hlinked.get hk hk', Program.callee?_host ?_,
    m.description.importedFunctions[k], ?_, ?_⟩
  · rw [hprogram, programOf, List.getElem?_toArray]
    exact List.getElem?_eq_getElem hk'
  · rw [Description.functionTypes, List.getElem?_append_left hk'']
    exact List.getElem?_eq_getElem hk''
  · have hsignature := hfound.get hk'' hk'
    exact congrArg Signature.params hsignature

/-- The machines that an instance of a compiled module goes through have the operands that typing
says. -/
lemma MadeOf.fits_of_mem_path {description : Description} (h : i.MadeOf budget m bs)
    (hcompile : description.compile = some m) (hc : c ∈ i.startPath ∨ ∃ name, c ∈ i.path name) :
    c.Fits m.description.functionTypes := by
  have hfits := h.fits hcompile
  rcases hc with hc | ⟨name, hc⟩
  · unfold startPath at hc
    split at hc
    · cases hc
    next index hindex =>
      rw [h.module_eq] at hindex
      exact Program.fits_of_mem_path hfits
        (Description.functionTypes_of_start hcompile hindex) c hc
  · unfold path at hc
    split at hc
    · cases hc
    next index _ =>
      split at hc
      next htype =>
        rw [h.module_eq] at htype
        unfold functionType at htype
        split at htype
        next t ht => exact Program.fits_of_mem_path hfits ht c hc
        · cases htype
      · cases hc

end Instance

/-! ## One call -/

namespace Machine

variable {p : Program} {c : Machine} {b : Binding} {rest : List Instr} {k : Nat}
  {answer : Except SandboxError Unit} {arguments below : List UInt32}

/-- What a host function answers to the machine, given the operands as arguments, the context and
the memory. -/
def replyOf (c : Machine) (b : Binding) (arguments : List UInt32) : Reply :=
  b.handler.run c.context c.memory (arguments.map UInt32.toInt32)

/-- The machine after a call of a host function, with the memory and the context that it left, and
other code and operands. -/
def resumed (c : Machine) (reply : Reply) (code : List Instr) (stack : List UInt32) : Machine :=
  { c with
    fuel := c.fuel - 1
    memory := reply.memory
    context := reply.context
    frame := { c.frame with code := code, stack := stack } }

/-- The machine after a load that comes to a word, or its end where the address is out of bounds. -/
def loaded (c : Machine) (code : List Instr) : Option UInt32 → Step
  | some w => .next { c with
      fuel := c.fuel - 1
      frame := { c.frame with code := code, stack := w :: c.frame.stack.tail } }
  | none => .halt ⟨c.fuel - 1, c.memory, c.context, .trapped .outOfBounds⟩

/-- The next step of the machine reads the memory given, if it is a load. -/
structure LoadsFrom (p : Program) (c : Machine) (memory : Memory) : Prop where
  /-- A word is read from the memory. -/
  word : ∀ code, c.frame.code = .load :: code →
    c.step p = c.loaded code (load? memory (top c.frame.stack))
  /-- A byte is read from the memory. -/
  byte : ∀ code, c.frame.code = .loadByte :: code →
    c.step p = c.loaded code (loadByte? memory (top c.frame.stack))

/-- A machine loads from the memory that it has. -/
lemma loadsFrom_memory (p : Program) (c : Machine) : c.LoadsFrom p c.memory := by
  have hfetch : ∀ code read, c.burn.fetch code read =
      c.loaded code (read c.memory (top c.frame.stack)) := by
    intro code read
    have hread : read c.burn.memory (top c.burn.frame.stack) =
        read c.memory (top c.frame.stack) := rfl
    rw [fetch, hread]
    cases read c.memory (top c.frame.stack) <;> rfl
  constructor
  · intro code hcode
    rw [step, hcode]
    exact hfetch code load?
  · intro code hcode
    rw [step, hcode]
    exact hfetch code loadByte?

/-- The machine calls a host function, in a run that has the answer given, and goes on with what
that function left, or the run ends. -/
structure Dispatched (p : Program) (c : Machine) (rest : List Instr)
    (answer : Except SandboxError Unit) (b : Binding) (arguments below : List UInt32) : Prop where
  /-- The function is given the context, the memory and the arguments. -/
  hostCall : c.hostCall? p = some ⟨b, c.context, c.memory, arguments.map UInt32.toInt32⟩
  /-- There are as many arguments as declared. -/
  arity : arguments.length = b.signature.params
  /-- The arguments were the topmost operands, the last one on top. -/
  operands : c.frame.stack = arguments.reverse ++ below
  /-- An error of the function is the answer of the run. -/
  refused : ∀ e, (c.replyOf b arguments).result = .error e → answer = .error (.host e)
  /-- Where no result is declared, a value that is returned is ignored. -/
  ignored : ∀ value, (c.replyOf b arguments).result = .ok value → b.signature.results = 0 →
    c.step p = .next (c.resumed (c.replyOf b arguments) rest below)
  /-- Where one result is declared, the value that is returned is the topmost operand. -/
  returned : ∀ value, (c.replyOf b arguments).result = .ok (some value) →
    b.signature.results = 1 →
      c.step p = .next (c.resumed (c.replyOf b arguments) rest (value.toUInt32 :: below))
  /-- Too few values for the declared results are a trap. -/
  missing : ∀ value, (c.replyOf b arguments).result = .ok value →
    value.toList.length < b.signature.results →
      answer = .error (.trapped Trap.resultMissing.message)
  /-- Until the guest calls the host again, stores or grows its memory, its loads read what the
  function left in the memory. -/
  seen : ∀ next before later after, c.step p = .next next →
    next.path p = before ++ later :: after →
    (∀ m ∈ before, m.hostCall? p = none ∧ m.mayChangeMemory = false) →
      later.LoadsFrom p (c.replyOf b arguments).memory

/-- With enough operands, the arguments are taken from them. -/
lemma takeArguments_of_le {n : Nat} {stack : List UInt32} (h : n ≤ stack.length) :
    takeArguments n stack = ((stack.take n).reverse, stack.drop n) := by
  rw [takeArguments, Nat.sub_eq_zero_of_le h, List.replicate_zero, List.append_nil]

/-- A value fills no result, or the one that it is for, and then the machine goes on with the words
that this leaves; or it does not, and the call is a trap. -/
lemma step_call_of_ok {value : Option Int32} (hcode : c.frame.code = .call k :: rest)
    (hb : p.callee? k = some (.host b))
    (harguments : takeArguments b.signature.params c.frame.stack = (arguments, below))
    (hvalue : (c.replyOf b arguments).result = .ok value) :
    c.step p =
      match resultsOf b.signature.results value with
      | none => .halt ⟨c.fuel - 1, (c.replyOf b arguments).memory,
          (c.replyOf b arguments).context, .trapped .resultMissing⟩
      | some results => .next (c.resumed (c.replyOf b arguments) rest (results ++ below)) := by
  have hstack : takeArguments b.signature.params c.burn.frame.stack = (arguments, below) :=
    harguments
  have hreply : b.handler.run c.burn.context c.burn.memory (arguments.map UInt32.toInt32) =
      c.replyOf b arguments := rfl
  simp only [step, hcode, exec, callIndex, hb, callHost, hstack, hreply, hvalue]
  cases resultsOf b.signature.results value with
  | none => rfl
  | some results => rfl

/-- A call of a host function for which there are enough operands. -/
lemma dispatched_of_le (hcode : c.frame.code = .call k :: rest)
    (hb : p.callee? k = some (.host b)) (hle : b.signature.params ≤ c.frame.stack.length)
    (hanswer : ∀ halt e, c.step p = .halt halt → halt.stop.error? = some e → answer = .error e) :
    Dispatched p c rest answer b (c.frame.stack.take b.signature.params).reverse
      (c.frame.stack.drop b.signature.params) := by
  have harguments := takeArguments_of_le hle
  have hcall : c.hostCall? p = some ⟨b, c.context, c.memory,
      (c.frame.stack.take b.signature.params).reverse.map UInt32.toInt32⟩ := by
    simp only [hostCall?, hcode, hb, harguments]
  refine ⟨hcall, ?_, ?_, ?_, ?_, ?_, ?_, ?_⟩
  · rw [List.length_reverse, List.length_take]
    omega
  · rw [List.reverse_reverse, List.take_append_drop]
  · intro e he
    obtain ⟨fuel, hhalt⟩ := step_of_refused hcall he
    exact hanswer _ _ hhalt rfl
  · intro value hvalue hzero
    have hstep := step_call_of_ok hcode hb harguments hvalue
    rw [hzero] at hstep
    exact hstep
  · intro value hvalue hone
    have hstep := step_call_of_ok hcode hb harguments hvalue
    rw [hone] at hstep
    exact hstep
  · intro value hvalue hfew
    have hstep := step_call_of_ok hcode hb harguments hvalue
    have hnone : resultsOf b.signature.results value = none := by
      unfold resultsOf
      split
      next hzero => omega
      next hone => simp [hone] at hfew
      next => rfl
    rw [hnone] at hstep
    exact hanswer _ _ hstep rfl
  · intro next before later after hstep hpath hkept
    have hleft : later.memory = (c.replyOf b _).memory :=
      (memory_of_path_eq hpath hkept).trans (memory_of_hostCall hcall hstep)
    rw [← hleft]
    exact loadsFrom_memory p later

end Machine

/-- An instance whose functions were linked calls, under the index of a declared import, the
function that the registry has under its name, and has the arguments for it. -/
lemma Instance.MadeOf.dispatched {budget : Budget} {m : Module} {bs : List Binding} {i : Instance}
    {r : Registry} {description : Description} {c : Machine} {k : Nat} {decl : ImportDecl}
    {rest : List Instr} {answer : Except SandboxError Unit} (h : i.MadeOf budget m bs)
    (hcompile : description.compile = some m) (hlink : r.link m.imports = .ok bs)
    (hdecl : m.imports[k]? = some decl) (hcode : c.frame.code = .call k :: rest)
    (hc : c ∈ i.startPath ∨ ∃ name, c ∈ i.path name)
    (hanswer : ∀ halt e, c.step i.program = .halt halt → halt.stop.error? = some e →
      answer = .error e) :
    ∃ b arguments below, r.resolve? decl.space decl.name = some b ∧
      decl.type = .function b.signature ∧
      c.Dispatched i.program rest answer b arguments below := by
  obtain ⟨b, hone, hcallee, t, ht, hparams⟩ := h.callee?_of_link hlink hdecl
  obtain ⟨hresolve, htype⟩ := Registry.linkOne_eq_ok_iff.1 hone
  have hle := (h.fits_of_mem_path hcompile hc).arguments hcode ht
  rw [← hparams] at hle
  exact ⟨b, _, _, hresolve, htype, Machine.dispatched_of_le hcode hcallee hle hanswer⟩

/-- A host function of the same name and signature that records nothing. -/
def hush : Binding := { tell with handler := .onContext fun c _ _ => (c, .ok none) }

end Wasm

namespace Driver

variable {d : Driver Wasm.Source Wasm.Module Wasm.Instance} {budget : Wasm.Budget}
  {registry : Registry} {config : Config} {m : Wasm.Module}

/-- Every registry comes about by registrations.  Whatever they were, and whatever was done with a
driver: a machine of its guest that calls a declared import, when the guest starts or in a call,
calls the function that was registered last under the name of the import, which has the declared
signature.  The function is given the topmost operands as its arguments, as many as declared, with
the context and the memory that the machine has; and the guest goes on with the context, the memory
and the result that the function leaves, or the run ends with the error of the function, or with a
trap if too few values were returned.  What the guest loads next is read from the memory that the
function left. -/
theorem calls_dispatch (h : Reachable (Wasm.engine budget) registry config d)
    (hm : d.module = some m) :
    (∃ registrations : List Binding, registrations.foldl Registry.register .empty = registry) ∧
      ∀ registrations : List Binding,
        registrations.foldl Registry.register .empty = registry →
        ∀ k decl c rest, m.imports[k]? = some decl → c.frame.code = .call k :: rest →
          (∀ context made, d.state = .linked ∨ d.state = .ready →
            Wasm.Instance.prepare budget m d.linked context = .ok made → c ∈ made.startPath →
              ∃ b arguments below,
                (registrations.filter (·.key = decl.key)).getLast? = some b ∧
                decl.type = .function b.signature ∧
                c.Dispatched made.program rest (made.start.map fun _ => ()) b arguments below) ∧
          ∀ i log name, d.guest = some i → c ∈ (i.holding log).path name →
            ∃ b arguments below,
              (registrations.filter (·.key = decl.key)).getLast? = some b ∧
              decl.type = .function b.signature ∧
              c.Dispatched i.program rest ((i.holding log).call name).1 b arguments below := by
  obtain ⟨hengine, hregistry, _, hcoherent⟩ := h.coherent
  obtain ⟨_, description, hcompile⟩ := h.compiled hm
  refine ⟨registry.exists_registrations, ?_⟩
  rintro registrations rfl k decl c rest hdecl hcode
  have hlink : d.IsLinked →
      (registrations.foldl Registry.register .empty).link m.imports = .ok d.linked := by
    intro hlinked
    have hbindings := hcoherent.linked_eq hlinked m hm
    rw [hengine, hregistry] at hbindings
    exact hbindings
  have hlast : ∀ b, (registrations.foldl Registry.register .empty).resolve? decl.space decl.name =
      some b → (registrations.filter (·.key = decl.key)).getLast? = some b := by
    intro b hb
    rw [Registry.resolve?_foldl_register] at hb
    have hempty : Registry.empty.resolve? decl.space decl.name = none := rfl
    rw [hempty, Option.or_none] at hb
    exact hb
  constructor
  · intro context made hstate hmade hc
    have hanswer : ∀ halt e, c.step made.program = .halt halt → halt.stop.error? = some e →
        made.start.map (fun _ => ()) = .error e := by
      intro halt e hhalt he
      rw [Wasm.Instance.start_of_mem_path hc hhalt he]
      rfl
    obtain ⟨b, arguments, below, hresolve, htype, hdispatched⟩ :=
      (Wasm.Instance.madeOf_prepare hmade).dispatched hcompile
        (hlink (Coherent.isLinked_of_state hstate)) hdecl hcode (Or.inl hc) hanswer
    exact ⟨b, arguments, below, hlast b hresolve, htype, hdispatched⟩
  · intro i log name hguest hc
    have hsome : d.guest.isSome := by rw [hguest]; rfl
    have hmade := h.madeOf hm hguest
    have hheld : (i.holding log).MadeOf budget m d.linked :=
      ⟨hmade.module_eq, hmade.budget_eq, hmade.program_eq⟩
    obtain ⟨b, arguments, below, hresolve, htype, hdispatched⟩ :=
      hheld.dispatched hcompile (hlink (hcoherent.isLinked_of_guest hsome)) hdecl hcode
        (Or.inr ⟨name, hc⟩) fun _ _ => Wasm.Instance.call_of_mem_path hc
    exact ⟨b, arguments, below, hlast b hresolve, htype, hdispatched⟩

/-- The host function that records a number of pages has been registered in place of one that
records nothing. -/
lemma foldl_register_hush :
    [Wasm.hush, Wasm.tell].foldl Registry.register .empty = growingRegistry := rfl

/-- The guest that has grown its memory to two pages calls its import with that number. -/
lemma mem_path_growing_call (context : Context) :
    Wasm.growAt 6 2 context [.call 0] [2] ∈ (Wasm.growingInstance 1 context).path "main" := by
  have hgrow : (Wasm.growAt 8 1 context [.memoryGrow, .drop, .memorySize, .call 0] [1]).step
      Wasm.growingProgram =
        .next (Wasm.growAt 7 2 context [.drop, .memorySize, .call 0] [1]) :=
    Wasm.step_growAt_grow context (by decide)
  have hdrop : (Wasm.growAt 7 2 context [.drop, .memorySize, .call 0] [1]).step
      Wasm.growingProgram = .next (Wasm.growAt 7 2 context [.memorySize, .call 0] []) := rfl
  have hsize : (Wasm.growAt 7 2 context [.memorySize, .call 0] []).step Wasm.growingProgram =
      .next (Wasm.growAt 6 2 context [.call 0] [2]) := Wasm.step_growAt_size context 2
  rw [path_growing, Wasm.Machine.path_of_next hgrow, Wasm.Machine.path_of_next hdrop,
    Wasm.Machine.path_of_next hsize, Wasm.Machine.path]
  simp

/-- A guest that has grown its memory to two pages says so to the function that was registered
last: the number is recorded, and the guest goes on with two pages and without operands. -/
theorem calls_dispatch_growing :
    ∃ r, Reachable (Wasm.engine Wasm.growingBudget) growingRegistry cappedConfig (cappedReady r) ∧
      [Wasm.hush, Wasm.tell].foldl Registry.register .empty = growingRegistry ∧
      Wasm.growAt 6 2 (.new r .standard) [.call 0] [2] ∈
        (Wasm.growingInstance 1 (.new r .standard)).path "main" ∧
      ∃ b arguments below,
        ([Wasm.hush, Wasm.tell].filter (·.key = ("env", "tell"))).getLast? = some b ∧
        (Wasm.growAt 6 2 (.new r .standard) [.call 0] [2]).Dispatched Wasm.growingProgram []
          ((Wasm.growingInstance 1 (.new r .standard)).call "main").1 b arguments below ∧
        arguments = [2] ∧ below = [] ∧
        (Wasm.growAt 6 2 (.new r .standard) [.call 0] [2]).step Wasm.growingProgram =
          .next (Wasm.growAt 5 2 (Wasm.pagesContext r 2) [] []) := by
  obtain ⟨r, hreachable⟩ := reachable_cappedReady
  have hpath := mem_path_growing_call (.new r .standard)
  obtain ⟨_, hcalls⟩ := calls_dispatch hreachable rfl
  obtain ⟨_, hcall⟩ := hcalls _ foldl_register_hush 0 ⟨"env", "tell", .function ⟨1, 0⟩⟩
    (Wasm.growAt 6 2 (.new r .standard) [.call 0] [2]) [] rfl rfl
  obtain ⟨b, arguments, below, hlast, _, hdispatched⟩ :=
    hcall (Wasm.growingInstance 1 (Wasm.pagesContext r 1)) .empty "main" rfl hpath
  obtain rfl : Wasm.tell = b := Option.some.inj hlast
  have harity : arguments.length = 1 := hdispatched.arity
  have hstack : [2] = arguments.reverse ++ below := hdispatched.operands
  obtain ⟨word, rfl⟩ := List.length_eq_one_iff.1 harity
  obtain ⟨rfl, rfl⟩ : 2 = word ∧ [] = below := by
    simpa using hstack
  refine ⟨r, hreachable, foldl_register_hush, hpath, Wasm.tell, [2], [], hlast, hdispatched,
    rfl, rfl, ?_⟩
  exact hdispatched.ignored none rfl rfl

end Driver

end ContractHost
