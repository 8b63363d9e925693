import ContractHost.Import.Registry

/-!
# The bridge

The four functions that every contract can import from the namespace `env`:

* `_reason_len` gives the length of the serialized reason,
* `_reason` copies the reason into the guest's memory,
* `_send_transaction` records a transaction from a tag and a payload in the guest's memory,
* `_error` records a diagnostic from a message in the guest's memory.

A call that is refused leaves context and memory as they were.  The tag of a transaction must be
well-formed text; a diagnostic takes any bytes.
-/

namespace ContractHost.Bridge

/-- The namespace of the four functions. -/
def space : String := "env"

/-- The name of the function that gives the length of the reason. -/
def reasonLenName : String := "_reason_len"

/-- The name of the function that copies the reason. -/
def reasonName : String := "_reason"

/-- The name of the function that records a transaction. -/
def sendTransactionName : String := "_send_transaction"

/-- The name of the function that records a diagnostic. -/
def errorName : String := "_error"

/-- Nothing done, and the call refused. -/
def refuse (context : Context) (memory : Memory) (e : HostError) : Reply :=
  ⟨context, memory, .error e⟩

/-- The length of the reason. -/
def reasonLen (context : Context) (memory : Memory) : List Int32 → Reply
  | [] => ⟨context, memory, context.reasonLength.map some⟩
  | arguments => refuse context memory (.arity reasonLenName 0 arguments.length)

/-- Copies the reason to the destination given. -/
def reason (context : Context) (memory : Memory) : List Int32 → Reply
  | [destination] =>
    match memory.write destination context.reason with
    | .ok memory' => ⟨context, memory', .ok none⟩
    | .error e => refuse context memory (.bounds reasonName e)
  | arguments => refuse context memory (.arity reasonName 1 arguments.length)

/-- The record that `_send_transaction` makes of two ranges: both must be inside, and the tag must
be well-formed text. -/
def transactionRecord (memory : Memory) (tagAt tagLength payloadAt payloadLength : Int32) :
    Except HostError Record := do
  let tag ← (memory.read tagAt tagLength).mapError (.bounds sendTransactionName)
  let payload ← (memory.read payloadAt payloadLength).mapError (.bounds sendTransactionName)
  match Utf8.strict tag with
  | some text => .ok (.transaction text payload)
  | none => .error (.invalidText sendTransactionName)

/-- The record that `_error` makes of a range. -/
def diagnosticRecord (memory : Memory) (messageAt messageLength : Int32) :
    Except HostError Record := do
  let message ← (memory.read messageAt messageLength).mapError (.bounds errorName)
  .ok (.diagnostic (Utf8.lossy message))

/-- Adds a record to the log, if there is one and it fits. -/
def emit (function : String) (context : Context) (memory : Memory)
    (made : Except HostError Record) : Reply :=
  match made with
  | .error e => refuse context memory e
  | .ok record =>
    match context.record function record with
    | .error e => refuse context memory e
    | .ok context' => ⟨context', memory, .ok none⟩

/-- Records a transaction. -/
def sendTransaction (context : Context) (memory : Memory) : List Int32 → Reply
  | [tagAt, tagLength, payloadAt, payloadLength] =>
    emit sendTransactionName context memory
      (transactionRecord memory tagAt tagLength payloadAt payloadLength)
  | arguments => refuse context memory (.arity sendTransactionName 4 arguments.length)

/-- Records a diagnostic. -/
def error (context : Context) (memory : Memory) : List Int32 → Reply
  | [messageAt, messageLength] =>
    emit errorName context memory (diagnosticRecord memory messageAt messageLength)
  | arguments => refuse context memory (.arity errorName 2 arguments.length)

theorem memory_emit (function : String) (context : Context) (memory : Memory)
    (made : Except HostError Record) : (emit function context memory made).memory = memory := by
  unfold emit refuse
  split
  · rfl
  · split <;> rfl

theorem capacity_reasonLen (context : Context) (memory : Memory) (arguments : List Int32) :
    (reasonLen context memory arguments).memory.capacity = memory.capacity := by
  unfold reasonLen refuse
  split <;> rfl

theorem capacity_reason (context : Context) (memory : Memory) (arguments : List Int32) :
    (reason context memory arguments).memory.capacity = memory.capacity := by
  unfold reason refuse
  split
  · split
    next h => exact Memory.capacity_write h
    next => rfl
  · rfl

theorem capacity_sendTransaction (context : Context) (memory : Memory)
    (arguments : List Int32) :
    (sendTransaction context memory arguments).memory.capacity = memory.capacity := by
  unfold sendTransaction refuse
  split
  · rw [memory_emit]
  · rfl

theorem capacity_error (context : Context) (memory : Memory) (arguments : List Int32) :
    (error context memory arguments).memory.capacity = memory.capacity := by
  unfold error refuse
  split
  · rw [memory_emit]
  · rfl

/-- `_reason_len` with its signature. -/
def reasonLenBinding : Binding :=
  ⟨space, reasonLenName, ⟨0, 1⟩, ⟨reasonLen, capacity_reasonLen⟩⟩

/-- `_reason` with its signature. -/
def reasonBinding : Binding :=
  ⟨space, reasonName, ⟨1, 0⟩, ⟨reason, capacity_reason⟩⟩

/-- `_send_transaction` with its signature. -/
def sendTransactionBinding : Binding :=
  ⟨space, sendTransactionName, ⟨4, 0⟩, ⟨sendTransaction, capacity_sendTransaction⟩⟩

/-- `_error` with its signature. -/
def errorBinding : Binding :=
  ⟨space, errorName, ⟨2, 0⟩, ⟨error, capacity_error⟩⟩

/-- Registers the four functions. -/
def register (r : Registry) : Registry :=
  [reasonLenBinding, reasonBinding, sendTransactionBinding, errorBinding].foldl Registry.register r

/-- The registry with the four functions and nothing else. -/
def registry : Registry := register Registry.empty

end ContractHost.Bridge
