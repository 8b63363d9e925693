import Mathlib.Tactic.Common
import ContractHost.Bridge
import ContractHost.Proofs.Checks
import ContractHost.Proofs.Log.Counting
import ContractHost.Proofs.Memory.Ranges

/-!
# What a call of the bridge changes

A call of one of the four functions is refused, and then it leaves context and memory as they were,
or it is served, and then it does what its function is for and nothing else
(`Bridge.HostFunction.run_cases`).  In particular calls are all or nothing, the error of a refused
call names the function that was called, and a call that is served stays within its frame
(`Bridge.HostFunction.run_framed`).
-/

namespace ContractHost

namespace Bridge

variable {context context' : Context} {memory memory' : Memory}

/-! ## Making records -/

/-- A transaction is made just if the ranges hold the encoding of its tag and its payload. -/
lemma transactionRecord_eq_ok_iff {tagAt tagLength payloadAt payloadLength : Int32} {r : Record} :
    transactionRecord memory tagAt tagLength payloadAt payloadLength = .ok r ↔
      ∃ tag payload, r = .transaction tag payload ∧
        memory.Holds tagAt.toInt tagLength.toInt tag.toUTF8 ∧
        memory.Holds payloadAt.toInt payloadLength.toInt payload := by
  unfold transactionRecord
  simp only [bind_eq_ok_iff, mapError_eq_ok_iff, Memory.read_eq_ok_iff]
  constructor
  · rintro ⟨bytes, htag, payload, hpayload, h⟩
    split at h
    next text htext =>
      cases h
      rw [Utf8.strict_eq_some_iff.1 htext] at htag
      exact ⟨text, payload, rfl, htag, hpayload⟩
    next => cases h
  · rintro ⟨tag, payload, rfl, htag, hpayload⟩
    refine ⟨_, htag, payload, hpayload, ?_⟩
    rw [Utf8.strict_eq_some_iff.2 rfl]

/-- A transaction cannot be made because of one of its ranges, or because of its tag. -/
lemma transactionRecord_eq_error {tagAt tagLength payloadAt payloadLength : Int32}
    {e : HostError}
    (h : transactionRecord memory tagAt tagLength payloadAt payloadLength = .error e) :
    (∃ source, e = .bounds sendTransactionName source) ∨ e = .invalidText sendTransactionName := by
  unfold transactionRecord at h
  simp only [bind_eq_error_iff, mapError_eq_error_iff] at h
  rcases h with ⟨source, -, rfl⟩ | ⟨_, -, ⟨source, -, rfl⟩ | ⟨_, -, h⟩⟩
  · exact Or.inl ⟨source, rfl⟩
  · exact Or.inl ⟨source, rfl⟩
  · split at h
    · cases h
    · exact Or.inr (Except.error.inj h).symm

/-- A transaction that cannot be made is refused in the name of `_send_transaction`. -/
lemma function?_of_transactionRecord {tagAt tagLength payloadAt payloadLength : Int32}
    {e : HostError}
    (h : transactionRecord memory tagAt tagLength payloadAt payloadLength = .error e) :
    e.function? = some sendTransactionName := by
  rcases transactionRecord_eq_error h with ⟨_, rfl⟩ | rfl
  · rfl
  · rfl

/-- A diagnostic is made just if the range holds bytes of which its message is the text. -/
lemma diagnosticRecord_eq_ok_iff {messageAt messageLength : Int32} {r : Record} :
    diagnosticRecord memory messageAt messageLength = .ok r ↔
      ∃ message, r = .diagnostic (Utf8.lossy message) ∧
        memory.Holds messageAt.toInt messageLength.toInt message := by
  unfold diagnosticRecord
  simp only [bind_eq_ok_iff, mapError_eq_ok_iff, Memory.read_eq_ok_iff, Except.ok.injEq]
  exact exists_congr fun message => and_comm.trans (and_congr_left' eq_comm)

/-- A diagnostic cannot be made because of its range. -/
lemma diagnosticRecord_eq_error {messageAt messageLength : Int32} {e : HostError}
    (h : diagnosticRecord memory messageAt messageLength = .error e) :
    ∃ source, e = .bounds errorName source := by
  unfold diagnosticRecord at h
  simp only [bind_eq_error_iff, mapError_eq_error_iff] at h
  rcases h with ⟨source, -, rfl⟩ | ⟨_, -, h⟩
  · exact ⟨source, rfl⟩
  · cases h

/-- A diagnostic that cannot be made is refused in the name of `_error`. -/
lemma function?_of_diagnosticRecord {messageAt messageLength : Int32} {e : HostError}
    (h : diagnosticRecord memory messageAt messageLength = .error e) :
    e.function? = some errorName := by
  obtain ⟨_, rfl⟩ := diagnosticRecord_eq_error h
  rfl

/-- A record is emitted, or nothing is done and the call is refused, for want of the record or of
room in the log. -/
lemma emit_cases (function : String) (context : Context) (memory : Memory)
    (made : Except HostError Record) :
    (∃ e, emit function context memory made = refuse context memory e ∧
      (made = .error e ∨ ∃ r, context.record function r = .error e)) ∨
    ∃ r context', made = .ok r ∧ context.record function r = .ok context' ∧
      emit function context memory made = ⟨context', memory, .ok none⟩ := by
  cases made with
  | error e => exact Or.inl ⟨e, rfl, Or.inl rfl⟩
  | ok r =>
    cases hrecord : context.record function r with
    | error e => exact Or.inl ⟨e, by simp only [emit, hrecord], Or.inr ⟨r, hrecord⟩⟩
    | ok context' => exact Or.inr ⟨r, context', rfl, hrecord, by simp only [emit, hrecord]⟩

/-- A call that is served has made a record, and the record is added and nothing else. -/
lemma emit_of_ok {function : String} {made : Except HostError Record} {answer : Option Int32}
    (h : (emit function context memory made).result = .ok answer) : ∃ r, made = .ok r ∧
      emit function context memory made =
        ⟨{ context with log := context.log.push r }, memory, .ok none⟩ := by
  rcases emit_cases function context memory made with
    ⟨e, hrefused, -⟩ | ⟨r, context', hmade, hrecord, hemit⟩
  · rw [hrefused] at h
    cases h
  · obtain ⟨-, rfl⟩ := Context.record_eq_ok_iff.1 hrecord
    exact ⟨r, hmade, hemit⟩

/-! ## The four functions -/

/-- The functions of the bridge. -/
inductive HostFunction where
  | reasonLen
  | reason
  | sendTransaction
  | error
  deriving DecidableEq, Repr

namespace HostFunction

/-- The function with its name and signature. -/
def binding : HostFunction → Binding
  | reasonLen => reasonLenBinding
  | reason => reasonBinding
  | sendTransaction => sendTransactionBinding
  | error => errorBinding

/-- The name that the function is imported by. -/
def name (f : HostFunction) : String := f.binding.name

/-- What a call of the function comes to. -/
def run (f : HostFunction) (context : Context) (memory : Memory) (arguments : List Int32) :
    Reply := f.binding.handler.run context memory arguments

/-- Under its name the registry has the function. -/
lemma resolve?_registry (f : HostFunction) :
    registry.resolve? space f.name = some f.binding := by
  cases f <;> rfl

/-- What the registry holds is one of the functions. -/
lemma exists_of_mem_bindings {b : Binding} (h : b ∈ registry.bindings) :
    ∃ f : HostFunction, b = f.binding := by
  have hall : registry.bindings =
      [errorBinding, sendTransactionBinding, reasonBinding, reasonLenBinding] := rfl
  rw [hall] at h
  simp only [List.mem_cons, List.not_mem_nil, or_false] at h
  rcases h with rfl | rfl | rfl | rfl
  · exact ⟨.error, rfl⟩
  · exact ⟨.sendTransaction, rfl⟩
  · exact ⟨.reason, rfl⟩
  · exact ⟨.reasonLen, rfl⟩

/-- What a call comes to that is served. -/
inductive Served (context : Context) (memory : Memory) :
    HostFunction → List Int32 → Reply → Prop
  | reasonLen {length : Int32} (h : context.reasonLength = .ok length) :
    Served context memory .reasonLen [] ⟨context, memory, .ok (some length)⟩
  | reason {destination : Int32} {memory' : Memory}
    (h : memory.write destination context.reason = .ok memory') :
    Served context memory .reason [destination] ⟨context, memory', .ok none⟩
  | sendTransaction {tagAt tagLength payloadAt payloadLength : Int32} {tag : String}
    {payload : ByteArray} {context' : Context}
    (htag : memory.Holds tagAt.toInt tagLength.toInt tag.toUTF8)
    (hpayload : memory.Holds payloadAt.toInt payloadLength.toInt payload)
    (h : context.record sendTransactionName (.transaction tag payload) = .ok context') :
    Served context memory .sendTransaction [tagAt, tagLength, payloadAt, payloadLength]
      ⟨context', memory, .ok none⟩
  | error {messageAt messageLength : Int32} {message : ByteArray} {context' : Context}
    (hmessage : memory.Holds messageAt.toInt messageLength.toInt message)
    (h : context.record errorName (.diagnostic (Utf8.lossy message)) = .ok context') :
    Served context memory .error [messageAt, messageLength] ⟨context', memory, .ok none⟩

/-- A call is served, or nothing is done and it is refused with an error that names the function;
only a reason that is too long is refused without a name. -/
theorem run_cases (f : HostFunction) (context : Context) (memory : Memory)
    (arguments : List Int32) :
    Served context memory f arguments (f.run context memory arguments) ∨
      ∃ e, f.run context memory arguments = refuse context memory e ∧
        (e.function? = some f.name ∨ context.reasonLength = .error e) := by
  cases f with
  | reasonLen =>
    match arguments with
    | [] =>
      cases hlength : context.reasonLength with
      | ok length =>
        have hrun : reasonLen.run context memory [] = ⟨context, memory, .ok (some length)⟩ := by
          change (⟨context, memory, context.reasonLength.map some⟩ : Reply) = _
          rw [hlength]
          rfl
        rw [hrun]
        exact Or.inl (.reasonLen hlength)
      | error e =>
        refine Or.inr ⟨e, ?_, Or.inr rfl⟩
        change (⟨context, memory, context.reasonLength.map some⟩ : Reply) = _
        rw [hlength]
        rfl
    | _ :: _ => exact Or.inr ⟨_, rfl, Or.inl rfl⟩
  | reason =>
    match arguments with
    | [destination] =>
      have hrun : reason.run context memory [destination] =
          Bridge.reason context memory [destination] := rfl
      rw [hrun, Bridge.reason]
      cases hwrite : memory.write destination context.reason with
      | ok memory' => exact Or.inl (.reason hwrite)
      | error e => exact Or.inr ⟨_, rfl, Or.inl rfl⟩
    | [] => exact Or.inr ⟨_, rfl, Or.inl rfl⟩
    | _ :: _ :: _ => exact Or.inr ⟨_, rfl, Or.inl rfl⟩
  | sendTransaction =>
    match arguments with
    | [tagAt, tagLength, payloadAt, payloadLength] =>
      have hrun : sendTransaction.run context memory [tagAt, tagLength, payloadAt, payloadLength] =
          emit sendTransactionName context memory
            (transactionRecord memory tagAt tagLength payloadAt payloadLength) := rfl
      rw [hrun]
      rcases emit_cases sendTransactionName context memory
          (transactionRecord memory tagAt tagLength payloadAt payloadLength) with
        ⟨e, hemit, hmade | ⟨r, hrecord⟩⟩ | ⟨r, context', hmade, hrecord, hemit⟩
      · exact Or.inr ⟨e, hemit, Or.inl (function?_of_transactionRecord hmade)⟩
      · exact Or.inr ⟨e, hemit, Or.inl (Context.function?_of_record hrecord)⟩
      · obtain ⟨tag, payload, rfl, htag, hpayload⟩ := transactionRecord_eq_ok_iff.1 hmade
        rw [hemit]
        exact Or.inl (.sendTransaction htag hpayload hrecord)
    | [] => exact Or.inr ⟨_, rfl, Or.inl rfl⟩
    | [_] => exact Or.inr ⟨_, rfl, Or.inl rfl⟩
    | [_, _] => exact Or.inr ⟨_, rfl, Or.inl rfl⟩
    | [_, _, _] => exact Or.inr ⟨_, rfl, Or.inl rfl⟩
    | _ :: _ :: _ :: _ :: _ :: _ => exact Or.inr ⟨_, rfl, Or.inl rfl⟩
  | error =>
    match arguments with
    | [messageAt, messageLength] =>
      have hrun : error.run context memory [messageAt, messageLength] =
          emit errorName context memory (diagnosticRecord memory messageAt messageLength) := rfl
      rw [hrun]
      rcases emit_cases errorName context memory
          (diagnosticRecord memory messageAt messageLength) with
        ⟨e, hemit, hmade | ⟨r, hrecord⟩⟩ | ⟨r, context', hmade, hrecord, hemit⟩
      · exact Or.inr ⟨e, hemit, Or.inl (function?_of_diagnosticRecord hmade)⟩
      · exact Or.inr ⟨e, hemit, Or.inl (Context.function?_of_record hrecord)⟩
      · obtain ⟨message, rfl, hmessage⟩ := diagnosticRecord_eq_ok_iff.1 hmade
        rw [hemit]
        exact Or.inl (.error hmessage hrecord)
    | [] => exact Or.inr ⟨_, rfl, Or.inl rfl⟩
    | [_] => exact Or.inr ⟨_, rfl, Or.inl rfl⟩
    | _ :: _ :: _ :: _ => exact Or.inr ⟨_, rfl, Or.inl rfl⟩

/-! ## All or nothing -/

/-- What a call that is served may change: nothing at all, or the bytes from the destination on,
which are those of the reason then, or the log by one more record at its end. -/
def Framed (f : HostFunction) (context : Context) (memory : Memory) (arguments : List Int32)
    (reply : Reply) : Prop :=
  match f with
  | reasonLen => reply.context = context ∧ reply.memory = memory
  | reason =>
    reply.context = context ∧ ∃ destination : Int32, arguments = [destination] ∧
      reply.memory.capacity = memory.capacity ∧
      reply.memory.Holds destination.toInt context.reason.size context.reason ∧
      ∀ i : Nat, (i : Int) < destination.toInt ∨ destination.toInt + context.reason.size ≤ i →
        reply.memory.bytes[i]? = memory.bytes[i]?
  | sendTransaction | error =>
    reply.memory = memory ∧
      ∃ record, reply.context = { context with log := context.log.push record }

/-- A call that is served stays within the frame of its function. -/
lemma framed_of_served {f : HostFunction} {arguments : List Int32} {reply : Reply}
    (h : Served context memory f arguments reply) :
    f.Framed context memory arguments reply := by
  cases h with
  | reasonLen _ => exact ⟨rfl, rfl⟩
  | @reason destination memory' hwrite =>
    exact ⟨rfl, destination, rfl, Memory.capacity_write hwrite, Memory.holds_of_write hwrite,
      fun i hi => Memory.getElem?_of_write hwrite hi⟩
  | sendTransaction _ _ hrecord => exact ⟨rfl, _, (Context.record_eq_ok_iff.1 hrecord).2⟩
  | error _ hrecord => exact ⟨rfl, _, (Context.record_eq_ok_iff.1 hrecord).2⟩

/-- A call that is served has a result. -/
lemma result_of_served {f : HostFunction} {arguments : List Int32} {reply : Reply}
    (h : Served context memory f arguments reply) : ∃ answer, reply.result = .ok answer := by
  cases h <;> exact ⟨_, rfl⟩

/-- A contract that imports one of the names from `env` gets the function of that name.  If a call
of it fails, log, reason and memory are as before the call, and the error names the function; if it
succeeds, nothing is changed outside the frame of the function. -/
theorem run_framed (f : HostFunction) (context : Context) (memory : Memory)
    (arguments : List Int32) (hreason : context.reason.size ≤ Context.maxInt32) :
    registry.resolve? space f.name = some f.binding ∧
      (∀ e, (f.run context memory arguments).result = .error e →
        f.run context memory arguments = ⟨context, memory, .error e⟩ ∧
          e.function? = some f.name) ∧
      ∀ answer, (f.run context memory arguments).result = .ok answer →
        f.Framed context memory arguments (f.run context memory arguments) := by
  refine ⟨resolve?_registry f, ?_⟩
  have hlength : ∀ e, context.reasonLength ≠ .error e := by
    intro e h
    rw [Context.reasonLength, if_pos hreason] at h
    cases h
  rcases run_cases f context memory arguments with hserved | ⟨e, hrefused, hname⟩
  · refine ⟨fun e herror => ?_, fun _ _ => framed_of_served hserved⟩
    obtain ⟨answer, hanswer⟩ := result_of_served hserved
    rw [hanswer] at herror
    cases herror
  · rw [hrefused]
    refine ⟨?_, ?_⟩
    · rintro e' herror
      cases herror
      exact ⟨rfl, hname.resolve_right (hlength e)⟩
    · intro answer hanswer
      cases hanswer

/-- A context with a short reason, and a memory with a tag and a payload in it. -/
def sample : Context × Memory := (.new "{}".toUTF8 .standard, ⟨"transfer 100000".toUTF8⟩)

/-- With a payload that reaches one byte too far a transaction is refused, and nothing has happened;
the same transaction one byte shorter is recorded, and nothing else has happened. -/
theorem run_framed_sample :
    sample.1.reason.size ≤ Context.maxInt32 ∧
      sendTransaction.run sample.1 sample.2 [0, 8, 9, 7] =
        ⟨sample.1, sample.2, .error (.bounds sendTransactionName ⟨9, 7, 15⟩)⟩ ∧
      ∃ r, (sendTransaction.run sample.1 sample.2 [0, 8, 9, 6]).context =
        { sample.1 with log := sample.1.log.push r } := by
  have hreason : sample.1.reason.size ≤ Context.maxInt32 := by decide
  have herror : (sendTransaction.run sample.1 sample.2 [0, 8, 9, 7]).result =
      .error (.bounds sendTransactionName ⟨9, 7, 15⟩) := by decide +kernel
  have hok : (sendTransaction.run sample.1 sample.2 [0, 8, 9, 6]).result = .ok none := by
    decide +kernel
  obtain ⟨_, hfails, _⟩ := run_framed sendTransaction sample.1 sample.2 [0, 8, 9, 7] hreason
  obtain ⟨_, _, hserves⟩ := run_framed sendTransaction sample.1 sample.2 [0, 8, 9, 6] hreason
  exact ⟨hreason, (hfails _ herror).1, (hserves none hok).2⟩

end HostFunction

end Bridge

end ContractHost
