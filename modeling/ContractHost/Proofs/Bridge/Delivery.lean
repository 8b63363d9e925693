import Mathlib.Tactic.Common
import ContractHost.Proofs.Bridge.History
import ContractHost.Proofs.Reason.RoundTrip

/-!
# How a reason reaches a guest

Whatever functions of the bridge a guest calls, the reason that its host holds is the one that the
host was given.  So a guest that asks for the length of the reason and has room for as many bytes
gets the whole of its text there and nothing else anywhere, and the text is that of the reason in
its canonical form (`Bridge.reason_delivered`).
-/

namespace ContractHost.Bridge

/-- The contexts that a host comes to hold for a reason: a new one, and what becomes of it by calls
of the four functions, with any arguments and on any memories, and by taking the log. -/
inductive Carries (r : ByteArray) : Context → Prop
  | new (limits : LogLimits) : Carries r (.new r limits)
  | call {context : Context} (f : HostFunction) (memory : Memory) (arguments : List Int32)
    (h : Carries r context) : Carries r (f.run context memory arguments).context
  | clearLog {context : Context} (h : Carries r context) : Carries r context.clearLog

variable {context : Context} {memory memory' : Memory} {destination : Int32} {r : ByteArray}

/-- The reason stays what it was at first. -/
lemma Carries.reason_eq (h : Carries r context) : context.reason = r := by
  induction h with
  | new limits => rfl
  | @call context f memory arguments _ ih =>
    have hkeeps : (f.run context memory arguments).context.reason = context.reason :=
      (State.after_keeps ⟨context, memory⟩ (.call f arguments)).reason
    exact hkeeps.trans ih
  | clearLog _ ih => exact ih

/-- The length of a reason that is not too long is answered as it is. -/
lemma run_reasonLen (h : context.reason.size ≤ Context.maxInt32) (memory : Memory) :
    HostFunction.reasonLen.run context memory [] =
      ⟨context, memory, .ok (some (Int32.ofNat context.reason.size))⟩ := by
  have hlength : context.reasonLength = .ok (Int32.ofNat context.reason.size) := if_pos h
  change (⟨context, memory, context.reasonLength.map some⟩ : Reply) = _
  rw [hlength]
  rfl

/-- Where the reason can be written, it is. -/
lemma run_reason_of_write (h : memory.write destination context.reason = .ok memory') :
    HostFunction.reason.run context memory [destination] = ⟨context, memory', .ok none⟩ := by
  change Bridge.reason context memory [destination] = _
  simp only [Bridge.reason, h]

/-- Where the reason cannot be written, the call is refused. -/
lemma run_reason_of_refused {e : BoundsError}
    (h : memory.write destination context.reason = .error e) :
    HostFunction.reason.run context memory [destination] =
      refuse context memory (.bounds reasonName e) := by
  change Bridge.reason context memory [destination] = _
  simp only [Bridge.reason, h]

/-- Copying the reason changes neither the reason nor the log. -/
lemma context_run_reason (context : Context) (memory : Memory) (destination : Int32) :
    (HostFunction.reason.run context memory [destination]).context = context := by
  cases hwrite : memory.write destination context.reason with
  | ok memory' => rw [run_reason_of_write hwrite]
  | error e =>
    rw [run_reason_of_refused hwrite]
    rfl

/-- The call that copies the reason succeeds just if the reason can be written. -/
lemma result_run_reason_iff (answer : Option Int32) :
    (HostFunction.reason.run context memory [destination]).result = .ok answer ↔
      answer = none ∧ ∃ memory', memory.write destination context.reason = .ok memory' := by
  cases hwrite : memory.write destination context.reason with
  | ok memory' =>
    rw [run_reason_of_write hwrite, Except.ok.injEq, eq_comm]
    exact ⟨fun h => ⟨h, memory', rfl⟩, And.left⟩
  | error e =>
    rw [run_reason_of_refused hwrite]
    constructor
    · intro h
      cases h
    · rintro ⟨_, memory', h⟩
      cases h

/-- A reason that could be written and is not too long reaches the guest as it is, whatever was
called before and whatever its memory is then.  The guest is told its length; copying it to a
destination succeeds just if it fits there; and then the text stands there, from which the reason is
read in its canonical form, while all other bytes, the capacity and the log are as before. -/
theorem reason_delivered {p : Payload} (hencode : p.encode = .ok r)
    (hsize : r.size ≤ Context.maxInt32) (hcontext : Carries r context) (memory : Memory)
    (destination : Int32) :
    let reply := HostFunction.reason.run context memory [destination]
    ∃ n : Int32, n.toInt = r.size ∧
      HostFunction.reasonLen.run context memory [] = ⟨context, memory, .ok (some n)⟩ ∧
      ((∃ answer, reply.result = .ok answer) ↔
        0 ≤ destination.toInt ∧ destination.toInt + r.size ≤ memory.capacity) ∧
      reply.context = context ∧
      ∀ answer, reply.result = .ok answer →
        reply.memory.read destination n = .ok r ∧ Payload.decode r = .ok p.canonical ∧
          reply.memory.capacity = memory.capacity ∧
          ∀ i : Nat, (i : Int) < destination.toInt ∨ destination.toInt + r.size ≤ i →
            reply.memory.bytes[i]? = memory.bytes[i]? := by
  intro reply
  obtain rfl : context.reason = r := hcontext.reason_eq
  have hn : (Int32.ofNat context.reason.size).toInt = context.reason.size := by
    refine Int32.toInt_ofNat_of_lt ?_
    rw [Context.maxInt32] at hsize
    omega
  refine ⟨_, hn, run_reasonLen hsize memory, ?_, context_run_reason context memory destination,
    fun answer hanswer => ?_⟩
  · rw [← Memory.exists_write_iff]
    constructor
    · rintro ⟨answer, hanswer⟩
      exact ((result_run_reason_iff answer).1 hanswer).2
    · intro hwrite
      exact ⟨none, (result_run_reason_iff none).2 ⟨rfl, hwrite⟩⟩
  · obtain ⟨_, memory', hwrite⟩ := (result_run_reason_iff answer).1 hanswer
    have hmemory : reply.memory = memory' := congrArg Reply.memory (run_reason_of_write hwrite)
    have hread : memory'.read destination (Int32.ofNat context.reason.size) =
        .ok context.reason := by
      rw [Memory.read_eq_ok_iff, hn]
      exact Memory.holds_of_write hwrite
    have hdecode : Payload.decode context.reason = .ok p.canonical := by
      obtain ⟨hkind, htext⟩ := Payload.encode_eq_ok_iff.1 hencode
      rw [htext]
      exact Payload.ofBytes_bytes hkind
    rw [hmemory]
    exact ⟨hread, hdecode, Memory.capacity_write hwrite,
      fun i hi => Memory.getElem?_of_write hwrite hi⟩

/-- A reason whose details have a sender without bytes. -/
def sampleReason : Payload := .ofTransfer none ⟨some [], 1⟩

/-- The text of the reason. -/
def sampleText : ByteArray :=
  "\x7b\"kind\":\"transfer\",\"details\":\x7b\"amount\":1\x7d\x7d".toUTF8

/-- The reason is written as its text. -/
lemma encode_sampleReason : sampleReason.encode = .ok sampleText := by
  have hone : Decimal.digits (UInt64.toNat 1) = [1] := Decimal.digits_of_lt (by decide)
  have hbytes : sampleReason.bytes = sampleText.data.toList := by
    simp only [sampleReason, Payload.ofTransfer, Payload.bytes, Payload.toJson,
      Payload.senderMember, Payload.detailsJson, Payload.transferJson, List.nil_append,
      List.cons_append, Json.Value.write, Json.writeMembers, Json.Number.write, Decimal.intBytes,
      Decimal.natBytes, hone, Json.separated]
    decide
  rw [Payload.encode_eq_ok rfl, hbytes]

/-- What a host holds for the reason after the guest, on a small memory, has reported an error and
has failed to report another. -/
def sampleContext : Context :=
  let first := HostFunction.error.run (.new sampleText .standard) ⟨"low".toUTF8⟩ [0, 3]
  (HostFunction.error.run first.context first.memory [1, 3]).context

/-- On a memory of one byte more than the text has, the text fits behind the first byte, and it does
not fit one byte further on; the sender without bytes is not read back. -/
theorem reason_delivered_sample :
    sampleReason.encode = .ok sampleText ∧ sampleText.size ≤ Context.maxInt32 ∧
      Carries sampleText sampleContext ∧
      ∃ n : Int32, n.toInt = sampleText.size ∧
        (HostFunction.reason.run sampleContext (.zeros 43) [1]).memory.read 1 n =
          .ok sampleText ∧
        Payload.decode sampleText = .ok (.ofTransfer none ⟨none, 1⟩) ∧
        ∀ answer, (HostFunction.reason.run sampleContext (.zeros 43) [2]).result ≠ .ok answer := by
  have hsize : sampleText.size ≤ Context.maxInt32 := by decide
  have hcontext : Carries sampleText sampleContext := .call _ _ _ (.call _ _ _ (.new _))
  have hcapacity : (Memory.zeros 43).capacity = 43 := size_zeroBytes 43
  obtain ⟨n, hn, _, hfits, _, hserved⟩ :=
    reason_delivered encode_sampleReason hsize hcontext (.zeros 43) 1
  obtain ⟨answer, hanswer⟩ := hfits.2 (by rw [hcapacity]; decide)
  obtain ⟨hread, hdecode, _⟩ := hserved answer hanswer
  obtain ⟨_, _, _, hfits', _⟩ := reason_delivered encode_sampleReason hsize hcontext (.zeros 43) 2
  refine ⟨encode_sampleReason, hsize, hcontext, n, hn, hread, hdecode, fun answer' hanswer' => ?_⟩
  have hinside := hfits'.1 ⟨answer', hanswer'⟩
  rw [hcapacity] at hinside
  exact absurd hinside (by decide)

end ContractHost.Bridge
