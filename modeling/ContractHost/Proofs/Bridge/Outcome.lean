import Mathlib.Tactic.Common
import ContractHost.Proofs.Bridge.Frame
import ContractHost.Proofs.Checks
import ContractHost.Proofs.Log.Fitting
import ContractHost.Proofs.Text.Lossy

/-!
# What decides a call that records

A transaction is recorded just if both of its ranges lie inside the memory, its tag is well-formed
text, and the log has room; otherwise the call is refused for the first of these that fails, in
this order (`Bridge.run_sendTransaction_decided`).

A diagnostic takes any bytes.  Inside the memory it can only be refused for want of room in the
log, and the room that it takes is that of the message, which may be up to three times as long as
the range (`Bridge.run_error_decided`).
-/

namespace ContractHost

/-- That the log has room for a record of so many bytes: for the record, then for the bytes. -/
def Context.roomChecks (c : Context) (function : String) (size : Nat) : List (Check HostError) :=
  [⟨c.log.length < c.limits.maxRecords.toNat,
      .recordLimit function c.limits.maxRecords.toNat⟩,
    ⟨c.limits.AdmitsBytes (c.log.bytes + size), .byteLimit function c.limits.maxBytes.toNat⟩]

/-- There is room if neither limit is passed. -/
lemma Context.forall_met_roomChecks {c : Context} {function : String} {size : Nat} :
    (∀ check ∈ c.roomChecks function size, check.met) ↔
      c.log.length < c.limits.maxRecords.toNat ∧ c.limits.AdmitsBytes (c.log.bytes + size) := by
  simp [roomChecks]

/-- The limits refuse a record by the room in the log. -/
lemma Context.decided_checkCapacity (c : Context) (function : String) (size : Nat) :
    Decided (c.checkCapacity function size) (c.roomChecks function size) := by
  have hrecords : c.log.length < c.limits.maxRecords.toNat ↔
      ¬c.log.length ≥ c.limits.maxRecords.toNat := Nat.not_le.symm
  have hbytes : c.limits.AdmitsBytes (c.log.bytes + size) ↔
      ¬saturatingAdd c.log.bytes size > c.limits.maxBytes.toNat := by
    rw [← LogLimits.saturatingAdd_le_iff, Nat.not_lt]
  exact ((decided_ok ()).guard hbytes).guard hrecords

/-- Recording is decided by the room in the log. -/
lemma Context.decided_record (c : Context) (function : String) (r : Record) :
    Decided (c.record function r) (c.roomChecks function r.size) :=
  (c.decided_checkCapacity function r.size).bind fun _ _ => decided_ok _

/-- That a range lies inside a memory. -/
def Memory.rangeCheck (m : Memory) (function : String) (offset length : Int32) :
    Check HostError :=
  ⟨m.InBounds offset.toInt length.toInt,
    .bounds function ⟨offset.toInt, length.toInt, m.capacity⟩⟩

/-- Reading is decided by the range. -/
lemma Memory.decided_read (m : Memory) (function : String) (offset length : Int32) :
    Decided ((m.read offset length).mapError (.bounds function))
      [m.rangeCheck function offset length] := by
  refine decided_of_iff (fun h => ?_) fun h => ?_
  · exact ⟨_, by rw [read, if_pos h]; rfl⟩
  · rw [read, if_neg h]
    rfl

namespace Bridge

variable {context : Context} {memory : Memory}
  {tagAt tagLength payloadAt payloadLength messageAt messageLength : Int32}

/-- What is asked of the memory to make a transaction, in order. -/
def transactionRecordChecks (memory : Memory)
    (tagAt tagLength payloadAt payloadLength : Int32) : List (Check HostError) :=
  [memory.rangeCheck sendTransactionName tagAt tagLength,
    memory.rangeCheck sendTransactionName payloadAt payloadLength,
    ⟨∃ tag : String, memory.Holds tagAt.toInt tagLength.toInt tag.toUTF8,
      .invalidText sendTransactionName⟩]

/-- What is asked of a call of `_send_transaction`, in order. -/
def transactionChecks (context : Context) (memory : Memory)
    (tagAt tagLength payloadAt payloadLength : Int32) : List (Check HostError) :=
  transactionRecordChecks memory tagAt tagLength payloadAt payloadLength ++
    context.roomChecks sendTransactionName (tagLength.toInt.toNat + payloadLength.toInt.toNat)

/-- A record is emitted if it is made and added. -/
lemma result_emit (function : String) (context : Context) (memory : Memory)
    (made : Except HostError Record) : (emit function context memory made).result =
      (made >>= context.record function).map fun _ => none := by
  obtain e | r := made
  · rfl
  · change (emit function context memory (.ok r)).result = (context.record function r).map _
    rw [emit]
    cases context.record function r <;> rfl

/-- Making a transaction is decided by its ranges and its tag. -/
lemma decided_transactionRecord (memory : Memory)
    (tagAt tagLength payloadAt payloadLength : Int32) :
    Decided (transactionRecord memory tagAt tagLength payloadAt payloadLength)
      (transactionRecordChecks memory tagAt tagLength payloadAt payloadLength) := by
  unfold transactionRecord
  refine (memory.decided_read sendTransactionName tagAt tagLength).bind fun tag htag => ?_
  refine (memory.decided_read sendTransactionName payloadAt payloadLength).bind fun payload _ => ?_
  rw [mapError_eq_ok_iff, Memory.read_eq_ok_iff] at htag
  refine decided_of_iff (fun ⟨text, htext⟩ => ?_) fun hno => ?_
  · have hstrict : Utf8.strict tag = some text := Utf8.strict_eq_some_iff.2 (htag.eq htext)
    exact ⟨.transaction text payload, by rw [hstrict]⟩
  · have hstrict : Utf8.strict tag = none := by
      refine Option.eq_none_iff_forall_ne_some.2 fun text htext => hno ⟨text, ?_⟩
      rw [← Utf8.strict_eq_some_iff.1 htext]
      exact htag
    rw [hstrict]

/-- The size of a transaction is that of its ranges. -/
lemma size_of_transactionRecord {r : Record}
    (h : transactionRecord memory tagAt tagLength payloadAt payloadLength = .ok r) :
    r.size = tagLength.toInt.toNat + payloadLength.toInt.toNat := by
  obtain ⟨tag, payload, rfl, htag, hpayload⟩ := transactionRecord_eq_ok_iff.1 h
  rw [← htag.size_eq, ← hpayload.size_eq]
  rfl

/-- The outcome of a call of `_send_transaction` is decided by what is asked of it. -/
lemma decided_sendTransaction (context : Context) (memory : Memory)
    (tagAt tagLength payloadAt payloadLength : Int32) :
    Decided (HostFunction.sendTransaction.run context memory
        [tagAt, tagLength, payloadAt, payloadLength]).result
      (transactionChecks context memory tagAt tagLength payloadAt payloadLength) := by
  change Decided (emit sendTransactionName context memory
    (transactionRecord memory tagAt tagLength payloadAt payloadLength)).result _
  rw [result_emit]
  refine ((decided_transactionRecord memory tagAt tagLength payloadAt payloadLength).bind
    fun r hr => ?_).map _
  rw [← size_of_transactionRecord hr]
  exact context.decided_record sendTransactionName r

/-- A call of `_send_transaction` succeeds just if both ranges lie inside the memory, the tag is
well-formed text, and neither limit of the log is passed; then a transaction is added whose tag has
the bytes of the first range and whose payload those of the second.  Otherwise it is refused for the
first of these that is not met, and a range that does not lie inside is named with the capacity.
(A limit of the largest word admits even bytes that no word can count; no log holds so many.) -/
theorem run_sendTransaction_decided (context : Context) (memory : Memory)
    (tagAt tagLength payloadAt payloadLength : Int32) :
    let reply := HostFunction.sendTransaction.run context memory
      [tagAt, tagLength, payloadAt, payloadLength]
    let checks := transactionChecks context memory tagAt tagLength payloadAt payloadLength
    let bytes : Nat := context.log.bytes + (tagLength.toInt.toNat + payloadLength.toInt.toNat)
    ((∃ answer, reply.result = .ok answer) ↔ ∀ check ∈ checks, check.met) ∧
      ((context.limits.maxBytes.toNat = maxWord → bytes ≤ maxWord) →
        ((∃ answer, reply.result = .ok answer) ↔
        memory.InBounds tagAt.toInt tagLength.toInt ∧
        memory.InBounds payloadAt.toInt payloadLength.toInt ∧
        (∃ tag : String, memory.Holds tagAt.toInt tagLength.toInt tag.toUTF8) ∧
        context.log.length < context.limits.maxRecords.toNat ∧
        bytes ≤ context.limits.maxBytes.toNat)) ∧
      (∀ answer, reply.result = .ok answer → ∃ tag payload,
        reply = ⟨{ context with log := context.log.push (.transaction tag payload) }, memory,
          .ok none⟩ ∧
        memory.Holds tagAt.toInt tagLength.toInt tag.toUTF8 ∧
        memory.Holds payloadAt.toInt payloadLength.toInt payload) ∧
      ∀ e, reply.result = .error e ↔ FirstFailing checks e := by
  intro reply checks bytes
  have hdecided : Decided reply.result checks :=
    decided_sendTransaction context memory tagAt tagLength payloadAt payloadLength
  refine ⟨hdecided.exists_ok_iff, fun hcounts => ?_, fun answer hanswer => ?_, hdecided⟩
  · rw [hdecided.exists_ok_iff, ← LogLimits.admitsBytes_iff hcounts]
    simp [checks, transactionChecks, transactionRecordChecks, Memory.rangeCheck,
      Context.forall_met_roomChecks, or_imp, forall_and, bytes]
  · obtain ⟨r, hmade, hreply⟩ := emit_of_ok hanswer
    obtain ⟨tag, payload, rfl, htag, hpayload⟩ := transactionRecord_eq_ok_iff.1 hmade
    exact ⟨tag, payload, hreply, htag, hpayload⟩

/-- A memory that holds a letter, the beginning of a character of two bytes, and a letter. -/
def brokenText : Memory := ⟨⟨#[0x68, 0xC3, 0x69]⟩⟩

/-- With a payload beyond the memory, a tag that is no text and no room in the log, the payload is
what the call is refused for; then the tag; then the records; and with room it succeeds. -/
theorem run_sendTransaction_decided_brokenText :
    let full : Context := .new .empty ⟨0, 0⟩
    let empty : Context := .new .empty ⟨1, 3⟩
    (HostFunction.sendTransaction.run full brokenText [1, 1, 2, 2]).result =
        .error (.bounds sendTransactionName ⟨2, 2, 3⟩) ∧
      (HostFunction.sendTransaction.run full brokenText [1, 1, 2, 1]).result =
        .error (.invalidText sendTransactionName) ∧
      (HostFunction.sendTransaction.run full brokenText [0, 1, 1, 2]).result =
        .error (.recordLimit sendTransactionName 0) ∧
      ∃ tag payload, (HostFunction.sendTransaction.run empty brokenText [0, 1, 1, 2]).context.log =
        Log.empty.push (.transaction tag payload) ∧ brokenText.Holds 1 2 payload := by
  intro full empty
  have hletter : brokenText.Holds (0 : Int32).toInt (1 : Int32).toInt "h".toUTF8 :=
    Memory.read_eq_ok_iff.1 (by decide +kernel)
  have hbroken : brokenText.Holds (1 : Int32).toInt (1 : Int32).toInt ⟨#[0xC3]⟩ :=
    Memory.read_eq_ok_iff.1 (by decide +kernel)
  have hnone : Utf8.strict ⟨#[0xC3]⟩ = none := by decide +kernel
  have hnoText : ¬∃ tag : String,
      brokenText.Holds (1 : Int32).toInt (1 : Int32).toInt tag.toUTF8 := by
    rintro ⟨tag, htag⟩
    rw [Utf8.strict_eq_some_iff.2 (hbroken.eq htag)] at hnone
    exact Option.some_ne_none tag hnone
  obtain ⟨-, -, -, hpayload⟩ := run_sendTransaction_decided full brokenText 1 1 2 2
  obtain ⟨-, -, -, htext⟩ := run_sendTransaction_decided full brokenText 1 1 2 1
  obtain ⟨-, -, -, hfull⟩ := run_sendTransaction_decided full brokenText 0 1 1 2
  obtain ⟨-, hserved, hadded, -⟩ := run_sendTransaction_decided empty brokenText 0 1 1 2
  refine ⟨(hpayload _).2 ?_, (htext _).2 ?_, (hfull _).2 ?_, ?_⟩
  · exact .behind (by decide +kernel : brokenText.InBounds 1 1)
      (.here (by decide +kernel : ¬brokenText.InBounds 2 2))
  · exact .behind (by decide +kernel : brokenText.InBounds 1 1)
      (.behind (by decide +kernel : brokenText.InBounds 2 1) (.here hnoText))
  · exact .behind (by decide +kernel : brokenText.InBounds 0 1)
      (.behind (by decide +kernel : brokenText.InBounds 1 2)
        (.behind ⟨"h", hletter⟩ (.here (by decide))))
  · obtain ⟨answer, hanswer⟩ := (hserved (by decide +kernel)).2
      ⟨by decide +kernel, by decide +kernel, ⟨"h", hletter⟩, by decide +kernel, by decide +kernel⟩
    obtain ⟨tag, payload, hreply, -, hholds⟩ := hadded answer hanswer
    refine ⟨tag, payload, ?_, hholds⟩
    rw [hreply]
    rfl

/-- The outcome of a call of `_error` is decided by its range and the room for its message. -/
lemma decided_error {message : ByteArray}
    (hmessage : memory.Holds messageAt.toInt messageLength.toInt message) (context : Context) :
    Decided (HostFunction.error.run context memory [messageAt, messageLength]).result
      (context.roomChecks errorName (Utf8.lossy message).utf8ByteSize) := by
  change Decided (emit errorName context memory
    (diagnosticRecord memory messageAt messageLength)).result _
  rw [result_emit, diagnosticRecord_eq_ok_iff.2 ⟨message, rfl, hmessage⟩]
  exact (context.decided_record errorName (.diagnostic (Utf8.lossy message))).map _

/-- A call of `_error` on a range inside the memory can only be refused because one of the limits of
the log is reached; if neither is, a diagnostic is added, and it counts for the bytes of its
message.  The message is what the bytes of the range are read as: a well-formed character is kept
wherever it stands, and each longest ill-formed part is replaced by one `U+FFFD`.  So the message of
well-formed bytes is their text, reading the bytes of a message gives the message again, and it has
at most three times as many bytes as the range. -/
theorem run_error_decided (context : Context) {memory : Memory} {messageAt messageLength : Int32}
    (hinside : memory.InBounds messageAt.toInt messageLength.toInt) :
    ∃ bytes : ByteArray, memory.Holds messageAt.toInt messageLength.toInt bytes ∧
      let reply := HostFunction.error.run context memory [messageAt, messageLength]
      let message := Utf8.lossy bytes
      (∀ e, reply.result = .error e ↔
        FirstFailing (context.roomChecks errorName message.utf8ByteSize) e) ∧
      (context.log.length < context.limits.maxRecords.toNat →
        context.log.bytes + message.utf8ByteSize ≤ context.limits.maxBytes.toNat →
          reply = ⟨{ context with log := context.log.push (.diagnostic message) }, memory,
            .ok none⟩ ∧
          reply.context.log.bytes = context.log.bytes + message.utf8ByteSize) ∧
      (∀ text, message.toList = text ↔ Utf8.ReadsAs bytes.data.toList text) ∧
      (∀ text : String, bytes = text.toUTF8 → message = text) ∧
      (∀ before after c, bytes = before ++ (String.singleton c).toUTF8 ++ after →
        message = Utf8.lossy before ++ String.singleton c ++ Utf8.lossy after) ∧
      Utf8.lossy message.toUTF8 = message ∧
      message.utf8ByteSize ≤ 3 * messageLength.toInt := by
  have hbytes := Memory.read_eq_ok_iff.1 (if_pos hinside)
  refine ⟨_, hbytes, ?_⟩
  generalize memory.bytes.extract _ _ = bytes at hbytes
  intro reply message
  have hdecided := decided_error hbytes context
  refine ⟨hdecided, fun hrecords hroom => ?_, fun text => Utf8.toList_lossy_eq_iff,
    fun text htext => ?_, fun before after c hparts => ?_, Utf8.lossy_toUTF8 message, ?_⟩
  · obtain ⟨answer, hanswer⟩ := hdecided.exists_ok_iff.2
      (Context.forall_met_roomChecks.2 ⟨hrecords, fun _ => hroom⟩)
    obtain ⟨r, hmade, hreply⟩ := emit_of_ok hanswer
    rw [diagnosticRecord_eq_ok_iff.2 ⟨bytes, rfl, hbytes⟩, Except.ok.injEq] at hmade
    subst hmade
    replace hreply : reply = _ := hreply
    exact ⟨hreply, by rw [hreply]; rfl⟩
  · rw [← Utf8.lossy_toUTF8 text, ← htext]
  · rw [← Utf8.lossy_append, ← hparts]
  · have hle : message.utf8ByteSize ≤ 3 * bytes.size := Utf8.utf8ByteSize_lossy_le bytes
    have hsize := hbytes.size_eq
    obtain ⟨-, hlength, -⟩ := hinside
    omega

/-- The three bytes make a message of five, with `U+FFFD` for the one in the middle: with room for
four it is refused, and with room for five it is added. -/
theorem run_error_decided_brokenText :
    brokenText.InBounds (0 : Int32).toInt (3 : Int32).toInt ∧
      (HostFunction.error.run (.new .empty ⟨1, 4⟩) brokenText [0, 3]).result =
        .error (.byteLimit errorName 4) ∧
      (HostFunction.error.run (.new .empty ⟨1, 5⟩) brokenText [0, 3]).context.log =
        Log.empty.push (.diagnostic "h\ufffdi") := by
  have hinside : brokenText.InBounds (0 : Int32).toInt (3 : Int32).toInt := by decide +kernel
  have hall : brokenText.Holds (0 : Int32).toInt (3 : Int32).toInt brokenText.bytes :=
    Memory.read_eq_ok_iff.1 (by decide +kernel)
  have hmessage : Utf8.lossy brokenText.bytes = "h\ufffdi" := by decide +kernel
  obtain ⟨bytes, hbytes, hrefused, -⟩ := run_error_decided (.new .empty ⟨1, 4⟩) hinside
  obtain ⟨bytes', hbytes', -, hadded, -⟩ := run_error_decided (.new .empty ⟨1, 5⟩) hinside
  obtain rfl := hbytes.eq hall
  obtain rfl := hbytes'.eq hall
  rw [hmessage] at hrefused hadded
  refine ⟨hinside, (hrefused _).2 ?_, ?_⟩
  · exact .behind (by decide) (.here fun hroom => absurd (hroom (by decide)) (by decide))
  · obtain ⟨hreply, -⟩ := hadded (by decide) (by decide)
    rw [hreply]
    rfl

end Bridge

end ContractHost
