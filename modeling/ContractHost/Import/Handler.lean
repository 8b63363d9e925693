import ContractHost.Context
import ContractHost.Memory

/-!
# Handlers

A handler is the host's side of an imported function.  It is given the context and the memory of
the calling instance and the arguments of the call, and leaves behind a context, a memory and an
answer, also when it fails.  It can write to the memory but not change its capacity.
-/

namespace ContractHost

/-- What a handler leaves behind, and its answer. -/
structure Reply where
  context : Context
  memory : Memory
  result : Except HostError (Option Int32)

/-- The host's side of an imported function. -/
structure Handler where
  run : Context → Memory → List Int32 → Reply
  capacity_run : ∀ context memory arguments,
    (run context memory arguments).memory.capacity = memory.capacity

namespace Handler

/-- A handler that works on the context alone. -/
def onContext (f : Context → Nat → List Int32 → Context × Except HostError (Option Int32)) :
    Handler where
  run context memory arguments :=
    let (context', result) := f context memory.capacity arguments
    ⟨context', memory, result⟩
  capacity_run _ _ _ := rfl

end Handler

end ContractHost
