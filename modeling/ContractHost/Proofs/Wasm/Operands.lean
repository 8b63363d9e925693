import ContractHost.Proofs.Wasm.Path

/-!
# The operands of a guest

A function whose body is well typed finds on its stack the operands that typing says are there.
Only their number matters here, since all values are words.  A machine fits the types of its
functions if the code of the function that runs, of the blocks around it and of the functions that
wait can each go on from the operands that are there (`Machine.Fits`).  Every step keeps that
(`Machine.fits_step`), so that whoever calls a function has the arguments for it
(`Machine.Fits.arguments`).

A place that cannot be reached is typed with any operands.  Nothing has to be said of it, since
what stands before it never goes on.
-/

namespace ContractHost.Wasm

/-! ## Operands and stacks -/

namespace Operands

variable {o o' : Operands} {stack new : List UInt32} {t t' : ValueType}
  {ts takes gives : List ValueType}

/-- At a place that can be reached, there are as many words on the stack as operands. -/
structure Holds (o : Operands) (stack : List UInt32) : Prop where
  /-- The place can be reached. -/
  reached : o.unreached = false
  /-- There is a word for each operand. -/
  length_eq : o.types.length = stack.length

/-- One operand more is one word more. -/
lemma Holds.push (h : o.Holds stack) (t : ValueType) (w : UInt32) : (o.push t).Holds (w :: stack) :=
  ⟨h.reached, congrArg Nat.succ h.length_eq⟩

/-- An operand that is taken away was a word. -/
lemma Holds.pop (h : o.Holds stack) (hpop : o.pop t = some o') :
    0 < stack.length ∧ o'.Holds stack.tail := by
  obtain ⟨hreached, hlength⟩ := h
  unfold Operands.pop at hpop
  split at hpop
  next t' ts htypes =>
    split at hpop
    · cases hpop
      rw [htypes, List.length_cons] at hlength
      refine ⟨by omega, hreached, ?_⟩
      rw [List.length_tail]
      exact Nat.eq_sub_of_add_eq hlength
    · cases hpop
  · rw [hreached] at hpop
    cases hpop

/-- An operand of any type that is taken away was a word. -/
lemma Holds.popAny (h : o.Holds stack) (hpop : o.popAny = some o') : o'.Holds stack.tail := by
  obtain ⟨hreached, hlength⟩ := h
  unfold Operands.popAny at hpop
  split at hpop
  next t' ts htypes =>
    cases hpop
    rw [htypes, List.length_cons] at hlength
    refine ⟨hreached, ?_⟩
    rw [List.length_tail]
    exact Nat.eq_sub_of_add_eq hlength
  · rw [hreached] at hpop
    cases hpop

/-- Operands that are taken away one after the other were words. -/
lemma Holds.foldlM_pop (h : o.Holds stack) (hpop : ts.foldlM Operands.pop o = some o') :
    ts.length ≤ stack.length ∧ o'.Holds (stack.drop ts.length) := by
  induction ts generalizing o stack with
  | nil =>
    cases hpop
    exact ⟨Nat.zero_le _, h⟩
  | cons t ts ih =>
    rw [List.foldlM_cons] at hpop
    obtain ⟨o₁, hfirst, hrest⟩ := Option.bind_eq_some_iff.1 hpop
    obtain ⟨hpos, htail⟩ := h.pop hfirst
    obtain ⟨hle, hdrop⟩ := ih htail hrest
    rw [List.length_tail] at hle
    rw [List.drop_tail] at hdrop
    exact ⟨by rw [List.length_cons]; omega, hdrop⟩

/-- Operands that are taken away were words. -/
lemma Holds.popAll (h : o.Holds stack) (hpop : o.popAll ts = some o') :
    ts.length ≤ stack.length ∧ o'.Holds (stack.drop ts.length) := by
  have hreverse := h.foldlM_pop hpop
  rw [List.length_reverse] at hreverse
  exact hreverse

/-- Operands that are put on the stack are words. -/
lemma Holds.pushAll (h : o.Holds stack) (hnew : new.length = ts.length) :
    (o.pushAll ts).Holds (new ++ stack) := by
  have hpushed : ∀ o : Operands, (o.pushAll ts).unreached = o.unreached ∧
      (o.pushAll ts).types.length = ts.length + o.types.length := by
    clear h hnew
    unfold Operands.pushAll
    induction ts with
    | nil => exact fun _ => ⟨rfl, (Nat.zero_add _).symm⟩
    | cons t ts ih =>
      intro o
      obtain ⟨hsame, hlength⟩ := ih (o.push t)
      refine ⟨hsame, hlength.trans ?_⟩
      show ts.length + (o.types.length + 1) = ts.length + 1 + o.types.length
      omega
  obtain ⟨hsame, hlength⟩ := hpushed o
  refine ⟨hsame.trans h.reached, ?_⟩
  rw [hlength, List.length_append, hnew, h.length_eq]

/-- What takes operands and gives others takes words and gives words. -/
lemma Holds.apply (h : o.Holds stack) (happly : o.apply takes gives = some o') :
    takes.length ≤ stack.length ∧
      ∀ new : List UInt32, new.length = gives.length →
        o'.Holds (new ++ stack.drop takes.length) := by
  obtain ⟨left, hleft, rfl⟩ := Option.map_eq_some_iff.1 happly
  obtain ⟨hle, hdrop⟩ := h.popAll hleft
  exact ⟨hle, fun new hnew => hdrop.pushAll hnew⟩

/-- What takes one operand takes the topmost word. -/
lemma Holds.apply_one (h : o.Holds stack) (happly : o.apply [t] gives = some o')
    (new : List UInt32) (hnew : new.length = gives.length) : o'.Holds (new ++ stack.tail) := by
  rw [← List.drop_one]
  exact (h.apply happly).2 new hnew

/-- What takes two operands takes the two topmost words. -/
lemma Holds.apply_two (h : o.Holds stack) (happly : o.apply [t, t'] gives = some o')
    (new : List UInt32) (hnew : new.length = gives.length) :
    o'.Holds (new ++ stack.tail.tail) := by
  rw [← List.drop_one, ← List.drop_one, List.drop_drop]
  exact (h.apply happly).2 new hnew

/-- What gives as many operands as it takes leaves as many words. -/
lemma Holds.apply_same (h : o.Holds stack) (happly : o.apply takes gives = some o')
    (hsame : takes.length = gives.length) : o'.Holds stack := by
  obtain ⟨hle, hgives⟩ := h.apply happly
  have hkept := hgives (stack.take takes.length) (by rw [List.length_take]; omega)
  rw [List.take_append_drop] at hkept
  exact hkept

end Operands

/-- What uses the memory takes operands and gives others. -/
lemma Scope.apply_of_onMemory {scope : Scope} {o o' : Operands} {takes gives : List ValueType}
    (h : scope.onMemory o takes gives = some o') : o.apply takes gives = some o' := by
  unfold onMemory at h
  split at h
  · exact h
  · cases h

/-! ## Code, blocks and functions -/

namespace Scope

variable {scope : Scope} {depth : Nat} {stack : List UInt32} {code rest body : List Instr}
  {i : Instr}
  {o o' : Operands} {label : Label} {labels : List Label}

/-- Code that stands inside so many blocks is well typed with the operands.  At its end there is
nothing left in a block, and the results are left in a function. -/
def Ends (scope : Scope) (depth : Nat) (o : Operands) (code : List Instr) : Prop :=
  ∃ o', checkBody scope depth o code = some o' ∧
    if depth = 0 then ∃ left, o'.popAll scope.results = some left else o'.types = []

/-- Code that stands inside so many blocks can go on with the words on the stack. -/
def FitsCode (scope : Scope) (depth : Nat) (stack : List UInt32) (code : List Instr) : Prop :=
  ∃ o : Operands, o.Holds stack ∧ scope.Ends depth o code

/-- What stands behind each of the blocks can go on with the words below it, and loops can begin
again. -/
inductive FitsLabels (scope : Scope) : List Label → Prop
  | nil : FitsLabels scope []
  | cons {label : Label} {outer : List Label}
    (hafter : scope.FitsCode outer.length label.stack label.after)
    (hagain : ∀ body, label.again = some body → scope.FitsCode (outer.length + 1) [] body)
    (houter : FitsLabels scope outer) : FitsLabels scope (label :: outer)

/-- The first instruction finds its operands, and the code behind it goes on with those that it
leaves. -/
lemma FitsCode.cons (h : scope.FitsCode depth stack (i :: rest)) :
    ∃ o o' : Operands, o.Holds stack ∧ checkInstr scope depth o i = some o' ∧
      scope.Ends depth o' rest := by
  obtain ⟨o, ho, last, hcheck, hlast⟩ := h
  rw [checkBody] at hcheck
  obtain ⟨o', hfirst, hrest⟩ := Option.bind_eq_some_iff.1 hcheck
  exact ⟨o, o', ho, hfirst, last, hrest, hlast⟩

/-- At the end of a function its results are on the stack. -/
lemma FitsCode.results_le (h : scope.FitsCode 0 stack []) :
    scope.results.length ≤ stack.length := by
  obtain ⟨o, ho, last, hcheck, hlast⟩ := h
  rw [checkBody] at hcheck
  cases hcheck
  rw [if_pos rfl] at hlast
  obtain ⟨left, hleft⟩ := hlast
  exact (ho.popAll hleft).1

/-- The body of a block starts without operands. -/
lemma fitsCode_of_checkBody (hbody : checkBody scope (depth + 1) .none body = some o)
    (hempty : o.types.isEmpty = true) : scope.FitsCode (depth + 1) [] body := by
  refine ⟨.none, ⟨rfl, rfl⟩, o, hbody, ?_⟩
  rw [if_neg (Nat.succ_ne_zero depth)]
  exact List.isEmpty_iff.1 hempty

/-- The body of a block starts without operands, and leaves those around the block. -/
lemma fitsCode_of_checkBlock
    (h : ((checkBody scope (depth + 1) .none body).bind fun inner =>
      if inner.types.isEmpty then some o else none) = some o') :
    o = o' ∧ scope.FitsCode (depth + 1) [] body := by
  obtain ⟨inner, hinner, hempty⟩ := Option.bind_eq_some_iff.1 h
  split at hempty
  next hnothing => exact ⟨Option.some.inj hempty, fitsCode_of_checkBody hinner hnothing⟩
  · cases hempty

/-- The same for the two bodies of a branch. -/
lemma fitsCode_of_checkBlocks {other : List Instr}
    (h : ((checkBody scope (depth + 1) .none body).bind fun first =>
      (checkBody scope (depth + 1) .none other).bind fun second =>
        if first.types.isEmpty && second.types.isEmpty then some o else none) = some o') :
    o = o' ∧ scope.FitsCode (depth + 1) [] body ∧ scope.FitsCode (depth + 1) [] other := by
  obtain ⟨first, hfirst, h⟩ := Option.bind_eq_some_iff.1 h
  obtain ⟨second, hsecond, hempty⟩ := Option.bind_eq_some_iff.1 h
  split at hempty
  next hnothing =>
    obtain ⟨hnone, hnone'⟩ := Bool.and_eq_true_iff.1 hnothing
    exact ⟨Option.some.inj hempty, fitsCode_of_checkBody hfirst hnone,
      fitsCode_of_checkBody hsecond hnone'⟩
  · cases hempty

/-- A branch goes to a block, or there are the results with which the function is left. -/
def Reaches (scope : Scope) (depth n : Nat) (stack : List UInt32) : Prop :=
  n < depth ∨ scope.results.length ≤ stack.length

/-- A branch that is well typed can be made. -/
lemma reaches_of_checkBr {n : Nat} (ho : o.Holds stack)
    (h : (if n < depth then some .stopped
      else if n = depth then (o.popAll scope.results).map fun _ => .stopped
      else none) = some o') : scope.Reaches depth n stack := by
  by_cases hlt : n < depth
  · exact Or.inl hlt
  · rw [if_neg hlt] at h
    split at h
    · obtain ⟨left, hpop, _⟩ := Option.map_eq_some_iff.1 h
      exact Or.inr (ho.popAll hpop).1
    · cases h

/-- A branch under a condition that is well typed can be made, and if it is not made the operands
stay. -/
lemma reaches_of_checkBrIf {n : Nat} (ho : o.Holds stack)
    (h : (if n < depth then some o
      else if n = depth then o.apply scope.results scope.results
      else none) = some o') : scope.Reaches depth n stack ∧ o'.Holds stack := by
  by_cases hlt : n < depth
  · rw [if_pos hlt] at h
    exact ⟨Or.inl hlt, Option.some.inj h ▸ ho⟩
  · rw [if_neg hlt] at h
    split at h
    · exact ⟨Or.inr (ho.apply h).1, ho.apply_same h rfl⟩
    · cases h

/-- The body of a well-typed function starts without operands. -/
lemma fitsCode_of_isWellTyped (h : isWellTyped scope body = true) : scope.FitsCode 0 [] body := by
  unfold isWellTyped at h
  split at h
  next left hleft =>
    obtain ⟨last, hbody, hpop⟩ := Option.bind_eq_some_iff.1 hleft
    refine ⟨.none, ⟨rfl, rfl⟩, last, hbody, ?_⟩
    rw [if_pos rfl]
    exact ⟨left, hpop⟩
  · cases h

/-- Blocks further out can go on as well. -/
lemma FitsLabels.drop (h : scope.FitsLabels labels) (n : Nat) :
    scope.FitsLabels (labels.drop n) := by
  induction h generalizing n with
  | nil =>
    rw [List.drop_nil]
    exact .nil
  | @cons label outer hafter hagain houter ih =>
    cases n with
    | zero => exact .cons hafter hagain houter
    | succ n => exact ih n

/-- A function can go on. -/
structure FitsFrame (scope : Scope) (frame : Frame) : Prop where
  /-- Its code can go on. -/
  code : scope.FitsCode frame.labels.length frame.stack frame.code
  /-- So can what stands behind the blocks. -/
  labels : scope.FitsLabels frame.labels
  /-- It has as many results as its type says. -/
  results : frame.results = scope.results.length

end Scope

/-- Functions that wait can go on when they are given so many results. -/
inductive FitsCallers (types : List FunctionType) : Nat → List Frame → Prop
  | nil (n : Nat) : FitsCallers types n []
  | cons {n : Nat} {caller : Frame} {callers : List Frame} {scope : Scope}
    (hscope : scope.functions = types)
    (hcaller : ∀ results : List UInt32, results.length = n →
      scope.FitsFrame { caller with stack := results ++ caller.stack })
    (hcallers : FitsCallers types caller.results callers) : FitsCallers types n (caller :: callers)

/-- The functions of a program have the types given: those of the host have the signatures, and
those of the guest are well typed. -/
def Program.Fits (types : List FunctionType) (p : Program) : Prop :=
  ∀ index t, types[index]? = some t →
    (∃ b, p.callee? index = some (.host b) ∧
      b.signature = ⟨t.params.length, t.results.length⟩) ∨
    ∃ f scope, p.callee? index = some (.guest f) ∧ f.params = t.params.length ∧
      f.results = t.results.length ∧ scope.functions = types ∧
      scope.results.length = f.results ∧ isWellTyped scope f.body = true

/-! ## Steps -/

namespace Machine

variable {types : List FunctionType} {p : Program} {m m' : Machine} {scope : Scope}
  {stack : List UInt32} {code rest body : List Instr} {i : Instr} {o : Operands} {index : Nat}

/-- Around the code that runs, blocks and functions can go on. -/
structure Stands (scope : Scope) (m : Machine) : Prop where
  /-- The blocks around the code can go on. -/
  labels : scope.FitsLabels m.frame.labels
  /-- The function has as many results as its type says. -/
  results : m.frame.results = scope.results.length
  /-- The functions that wait can go on with these results. -/
  callers : FitsCallers scope.functions m.frame.results m.callers

/-- The function that runs and those that wait can go on. -/
def Fits (types : List FunctionType) (m : Machine) : Prop :=
  ∃ scope : Scope, scope.functions = types ∧ m.Stands scope ∧
    scope.FitsCode m.frame.labels.length m.frame.stack m.frame.code

/-- If a step goes on, it leaves a machine that fits. -/
def StepFits (types : List FunctionType) (s : Step) : Prop := ∀ m, s = .next m → m.Fits types

namespace Stands

/-- A step that halts leaves nothing to be shown. -/
lemma halt (m : Machine) (stop : Stop) : StepFits types (m.halt stop) := by
  intro m' h
  cases h

/-- Going on with code that fits. -/
lemma proceed (h : m.Stands scope)
    (hcode : scope.FitsCode m.frame.labels.length stack code) :
    StepFits scope.functions (m.proceed code stack) := by
  intro m' hm'
  cases hm'
  exact ⟨scope, rfl, ⟨h.labels, h.results, h.callers⟩, hcode⟩

/-- Entering a block. -/
lemma enterBlock (h : m.Stands scope)
    (hafter : scope.FitsCode m.frame.labels.length stack rest)
    (hbody : scope.FitsCode (m.frame.labels.length + 1) [] body) :
    StepFits scope.functions (m.enterBlock body rest stack) := by
  intro m' hm'
  cases hm'
  refine ⟨scope, rfl, ⟨.cons hafter ?_ h.labels, h.results, h.callers⟩, hbody⟩
  intro again hagain
  cases hagain

/-- Starting a loop. -/
lemma enterLoop {label : Label} {outer : List Label} (h : m.Stands scope)
    (hlabels : scope.FitsLabels (label :: outer))
    (hbody : scope.FitsCode (outer.length + 1) [] body) :
    StepFits scope.functions (m.enterLoop body label outer) := by
  unfold Machine.enterLoop
  split
  · exact halt m _
  · intro m' hm'
    cases hm'
    exact ⟨scope, rfl, ⟨hlabels, h.results, h.callers⟩, hbody⟩

/-- Leaving a block. -/
lemma leaveBlock {label : Label} {outer : List Label} (h : m.Stands scope)
    (hlabels : scope.FitsLabels (label :: outer)) :
    StepFits scope.functions (m.leaveBlock label outer) := by
  intro m' hm'
  cases hm'
  cases hlabels with
  | cons hafter _ houter => exact ⟨scope, rfl, ⟨houter, h.results, h.callers⟩, hafter⟩

/-- Leaving a function with its results. -/
lemma leaveFunction (h : m.Stands scope) (hresults : scope.results.length ≤ m.frame.stack.length) :
    StepFits scope.functions m.leaveFunction := by
  have hcallers := h.callers
  unfold Machine.leaveFunction
  cases hwaiting : m.callers with
  | nil => exact halt m _
  | cons caller callers =>
    rw [hwaiting] at hcallers
    intro m' hm'
    cases hm'
    cases hcallers with
    | cons hscope hcaller hrest =>
      have hlength : (m.frame.stack.take m.frame.results).length = m.frame.results := by
        rw [List.length_take, h.results]
        omega
      obtain ⟨hcode, hlabels, hcount⟩ := hcaller _ hlength
      exact ⟨_, hscope, ⟨hlabels, hcount, hscope ▸ hrest⟩, hcode⟩

/-- Branching to a block, or with the results to the function itself. -/
lemma branchTo {depth : Nat} (h : m.Stands scope)
    (hreach : scope.Reaches m.frame.labels.length depth m.frame.stack) :
    StepFits scope.functions (m.branchTo depth) := by
  have hlabels := h.labels.drop depth
  unfold Machine.branchTo
  cases hdrop : m.frame.labels.drop depth with
  | nil =>
    have hle := List.drop_eq_nil_iff.1 hdrop
    rcases hreach with hlt | hresults
    · omega
    · exact h.leaveFunction hresults
  | cons label outer =>
    rw [hdrop] at hlabels
    dsimp only
    cases hagain : label.again with
    | none => exact h.leaveBlock hlabels
    | some body =>
      refine h.enterLoop hlabels ?_
      cases hlabels with
      | cons _ hloop _ => exact hloop body hagain

/-- An answer that fills the results of a type gives as many words. -/
lemma length_of_resultsOf {n : Nat} {answer : Option Int32} {results : List UInt32}
    (h : resultsOf n answer = some results) : results.length = n := by
  unfold resultsOf at h
  split at h
  · cases h
    rfl
  · cases h
    rfl
  · cases h

/-- Calling a host function of the type. -/
lemma callHost {b : Binding} {t : FunctionType} {o' : Operands} (h : m.Stands scope)
    (hb : b.signature = ⟨t.params.length, t.results.length⟩) (ho : o.Holds m.frame.stack)
    (happly : o.apply t.params t.results = some o')
    (hrest : scope.Ends m.frame.labels.length o' rest) :
    StepFits scope.functions (m.callHost b rest) := by
  unfold Machine.callHost
  dsimp only
  split
  · exact halt _ _
  · split
    · exact halt _ _
    next results hresults =>
      have hlength : results.length = t.results.length := by
        rw [hb] at hresults
        exact length_of_resultsOf hresults
      obtain ⟨_, hgives⟩ := ho.apply happly
      refine Stands.proceed ⟨h.labels, h.results, h.callers⟩ ⟨o', ?_, hrest⟩
      rw [hb]
      exact hgives results hlength

/-- Entering a well-typed function of the guest. -/
lemma enterFunction {f : Function} {t : FunctionType} {o' : Operands} {inner : Scope}
    (h : m.Stands scope) (hscope : inner.functions = scope.functions)
    (hresults : inner.results.length = f.results) (hcount : f.results = t.results.length)
    (htyped : isWellTyped inner f.body = true) (ho : o.Holds m.frame.stack)
    (happly : o.apply t.params t.results = some o')
    (hrest : scope.Ends m.frame.labels.length o' rest) (arguments : List UInt32) :
    StepFits scope.functions
      (m.enterFunction f arguments rest (m.frame.stack.drop t.params.length)) := by
  unfold Machine.enterFunction
  split
  · exact halt m _
  · intro m' hm'
    cases hm'
    obtain ⟨_, hgives⟩ := ho.apply happly
    refine ⟨inner, hscope, ⟨.nil, hresults.symm, ?_⟩, Scope.fitsCode_of_isWellTyped htyped⟩
    refine .cons hscope.symm (fun results hlength => ?_) (hscope ▸ h.callers)
    exact ⟨⟨o', hgives results (hlength.trans hcount), hrest⟩, h.labels, h.results⟩

end Stands

/-- A call of a function of the program leaves, if it goes on, a machine that fits. -/
lemma stepFits_callIndex {t : FunctionType} {o' : Operands} (hp : p.Fits scope.functions)
    (h : m.Stands scope) (ht : scope.functions[index]? = some t) (ho : o.Holds m.frame.stack)
    (happly : o.apply t.params t.results = some o')
    (hrest : scope.Ends m.frame.labels.length o' rest) :
    StepFits scope.functions (callIndex p m index rest) := by
  unfold callIndex
  rcases hp index t ht with ⟨b, hb, hsignature⟩ |
    ⟨f, inner, hf, hparams, hcount, hscope, hresults, htyped⟩
  · rw [hb]
    exact h.callHost hsignature ho happly hrest
  · rw [hf]
    dsimp only
    rw [takeArguments, hparams]
    exact h.enterFunction hscope hresults hcount htyped ho happly hrest _

/-- An instruction of code that fits leaves, if it goes on, a machine that fits. -/
lemma stepFits_exec (hp : p.Fits scope.functions) (h : m.Stands scope)
    (hcode : scope.FitsCode m.frame.labels.length m.frame.stack (i :: rest)) :
    StepFits scope.functions (exec p m rest i) := by
  obtain ⟨o, o', ho, hcheck, hrest⟩ := hcode.cons
  have hburnt : m.burn.Stands scope := ⟨h.labels, h.results, h.callers⟩
  -- Going on behind the instruction, with the words that it leaves.
  have hgo : ∀ {stack : List UInt32}, o'.Holds stack →
      scope.FitsCode m.frame.labels.length stack rest := fun hstack => ⟨o', hstack, hrest⟩
  cases i with
  | const w | floatConst w =>
    rw [checkInstr] at hcheck
    exact hburnt.proceed (hgo ((ho.apply hcheck).2 [w] rfl))
  | binary op =>
    rw [checkInstr] at hcheck
    rw [exec]
    split
    next w _ => exact hburnt.proceed (hgo (ho.apply_two hcheck [w] rfl))
    · exact Stands.halt _ _
  | floatDiv =>
    rw [checkInstr] at hcheck
    exact hburnt.proceed (hgo (ho.apply_two hcheck [_] rfl))
  | reinterpret =>
    rw [checkInstr] at hcheck
    exact hburnt.proceed (hgo (ho.apply_same hcheck rfl))
  | load | loadByte =>
    rw [checkInstr] at hcheck
    have happly := Scope.apply_of_onMemory hcheck
    simp only [exec, fetch]
    split
    next w _ => exact hburnt.proceed (hgo (ho.apply_one happly [w] rfl))
    · exact Stands.halt _ _
  | store | storeByte =>
    rw [checkInstr] at hcheck
    have happly := Scope.apply_of_onMemory hcheck
    simp only [exec, put]
    split
    · exact Stands.proceed ⟨h.labels, h.results, h.callers⟩ (hgo (ho.apply_two happly [] rfl))
    · exact Stands.halt _ _
  | memorySize =>
    rw [checkInstr] at hcheck
    have happly := Scope.apply_of_onMemory hcheck
    exact hburnt.proceed (hgo ((ho.apply happly).2 [UInt32.ofNat m.memory.pages] rfl))
  | memoryGrow =>
    rw [checkInstr] at hcheck
    have happly := Scope.apply_of_onMemory hcheck
    simp only [exec, growMemory]
    split
    · exact Stands.proceed ⟨h.labels, h.results, h.callers⟩ (hgo (ho.apply_one happly [_] rfl))
    · exact hburnt.proceed (hgo (ho.apply_one happly [_] rfl))
  | localGet n =>
    rw [checkInstr] at hcheck
    obtain ⟨t, _, rfl⟩ := Option.map_eq_some_iff.1 hcheck
    exact hburnt.proceed (hgo (ho.push t _))
  | localSet n =>
    rw [checkInstr] at hcheck
    obtain ⟨t, _, hpop⟩ := Option.bind_eq_some_iff.1 hcheck
    intro m' hm'
    cases hm'
    exact ⟨scope, rfl, ⟨h.labels, h.results, h.callers⟩, hgo (ho.pop hpop).2⟩
  | localTee n =>
    rw [checkInstr] at hcheck
    obtain ⟨t, _, happly⟩ := Option.bind_eq_some_iff.1 hcheck
    intro m' hm'
    cases hm'
    exact ⟨scope, rfl, ⟨h.labels, h.results, h.callers⟩, hgo (ho.apply_same happly rfl)⟩
  | block body =>
    rw [checkInstr] at hcheck
    obtain ⟨rfl, hbody⟩ := Scope.fitsCode_of_checkBlock hcheck
    exact h.enterBlock (hgo ho) hbody
  | loop body =>
    rw [checkInstr] at hcheck
    obtain ⟨rfl, hbody⟩ := Scope.fitsCode_of_checkBlock hcheck
    refine h.enterLoop (.cons (hgo ho) ?_ h.labels) hbody
    intro again hagain
    cases hagain
    exact hbody
  | branch whenTrue whenFalse =>
    rw [checkInstr] at hcheck
    obtain ⟨below, hpop, hbodies⟩ := Option.bind_eq_some_iff.1 hcheck
    obtain ⟨rfl, htrue, hfalse⟩ := Scope.fitsCode_of_checkBlocks hbodies
    refine hburnt.enterBlock (hgo (ho.pop hpop).2) ?_
    split
    · exact htrue
    · exact hfalse
  | br n =>
    rw [checkInstr] at hcheck
    exact hburnt.branchTo (Scope.reaches_of_checkBr ho hcheck)
  | brIf n =>
    rw [checkInstr] at hcheck
    obtain ⟨below, hpop, htarget⟩ := Option.bind_eq_some_iff.1 hcheck
    have hbelow := (ho.pop hpop).2
    obtain ⟨hreach, hsame⟩ := Scope.reaches_of_checkBrIf hbelow htarget
    have hpopped : m.burn.popOperand.Stands scope := ⟨h.labels, h.results, h.callers⟩
    simp only [exec]
    split
    · exact hpopped.branchTo hreach
    · exact hburnt.proceed (hgo hsame)
  | call n =>
    rw [checkInstr] at hcheck
    obtain ⟨t, ht, happly⟩ := Option.bind_eq_some_iff.1 hcheck
    exact stepFits_callIndex hp hburnt ht ho happly hrest
  | ret =>
    rw [checkInstr] at hcheck
    obtain ⟨left, hpop, _⟩ := Option.map_eq_some_iff.1 hcheck
    exact h.leaveFunction (ho.popAll hpop).1
  | drop =>
    rw [checkInstr] at hcheck
    exact h.proceed (hgo (ho.popAny hcheck))
  | nop =>
    rw [checkInstr] at hcheck
    cases hcheck
    exact h.proceed (hgo ho)
  | unreachable => exact Stands.halt _ _

/-- A machine that fits goes on, if at all, to one that fits. -/
theorem fits_step (hp : p.Fits types) (h : m.Fits types) (hstep : m.step p = .next m') :
    m'.Fits types := by
  obtain ⟨scope, rfl, hstands, hcode⟩ := h
  have hfits : StepFits scope.functions (m.step p) := by
    unfold step
    split
    next i rest hhead =>
      rw [hhead] at hcode
      exact stepFits_exec hp hstands hcode
    next hend =>
      rw [hend] at hcode
      cases hlabels : m.frame.labels with
      | nil =>
        rw [hlabels] at hcode
        exact hstands.leaveFunction hcode.results_le
      | cons label outer =>
        have hall := hstands.labels
        rw [hlabels] at hall
        exact hstands.leaveBlock hall
  exact hfits m' hstep

/-- A machine that fits has the arguments for every function that it calls. -/
lemma Fits.arguments {t : FunctionType} (h : m.Fits types)
    (hcode : m.frame.code = .call index :: rest) (ht : types[index]? = some t) :
    t.params.length ≤ m.frame.stack.length := by
  obtain ⟨scope, rfl, _, hfits⟩ := h
  rw [hcode] at hfits
  obtain ⟨o, o', ho, hcheck, _⟩ := hfits.cons
  rw [checkInstr, ht] at hcheck
  exact (ho.apply hcheck).1

end Machine

/-- All machines that a call from outside goes through fit. -/
theorem Program.fits_of_mem_path {types : List FunctionType} {p : Program} (hp : p.Fits types)
    {index fuel : Nat} {memory : Memory} {context : Context} {t : FunctionType}
    (ht : types[index]? = some t) :
    ∀ c ∈ p.path index fuel memory context, c.Fits types := by
  refine forall_mem_path (fun _ _ => Machine.fits_step hp) fun f hf => ?_
  rcases hp index t ht with ⟨b, hb, _⟩ | ⟨g, scope, hg, _, _, hscope, hresults, htyped⟩
  · cases hb.symm.trans hf
  · cases hg.symm.trans hf
    exact ⟨scope, hscope, ⟨.nil, hresults.symm, .nil _⟩, Scope.fitsCode_of_isWellTyped htyped⟩

end ContractHost.Wasm
