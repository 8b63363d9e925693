import Mathlib.Data.List.Forall2
import ContractHost.Proofs.Bridge.Frame

/-!
# What the log tells of the calls

What a call emits is one record, of the bytes that the cited ranges hold, or none
(`Bridge.HostFunction.Emits`), and that is what it adds to the log.

A guest calls functions of the bridge in any order, the host writes to the memory between the calls
and takes the log now and then.  At every time the log is within its limits, and it tells exactly
of the calls that succeeded since it was last taken and that are to leave a record: one record for
each, in order, made of the bytes that the cited ranges held when the call was made
(`Bridge.State.afterAll_log`).
-/

namespace ContractHost.Bridge

/-- The context and the memory of a guest. -/
structure State where
  context : Context
  memory : Memory

/-- What can happen to a guest's context and memory. -/
inductive Event where
  | call (f : HostFunction) (arguments : List Int32)
  | write (offset : Int32) (data : ByteArray)
  | takeLog
  deriving DecidableEq

/-- A call of a function, with the memory as it was when the call was made. -/
structure Call where
  memory : Memory
  function : HostFunction
  arguments : List Int32
  deriving DecidableEq

/-- The record tells what the ranges held that the call cites. -/
inductive Call.Tells : Call → Record → Prop
  | transaction {memory : Memory} {tagAt tagLength payloadAt payloadLength : Int32} {tag : String}
    {payload : ByteArray} (htag : memory.Holds tagAt.toInt tagLength.toInt tag.toUTF8)
    (hpayload : memory.Holds payloadAt.toInt payloadLength.toInt payload) :
    Tells ⟨memory, .sendTransaction, [tagAt, tagLength, payloadAt, payloadLength]⟩
      (.transaction tag payload)
  | diagnostic {memory : Memory} {messageAt messageLength : Int32} {message : ByteArray}
    (hmessage : memory.Holds messageAt.toInt messageLength.toInt message) :
    Tells ⟨memory, .error, [messageAt, messageLength]⟩ (.diagnostic (Utf8.lossy message))

/-- Whether a call of the function is to leave a record. -/
def HostFunction.leavesRecord : HostFunction → Bool
  | sendTransaction | error => true
  | reasonLen | reason => false

/-! ## What a call emits -/

section Emitting

variable {context : Context} {memory : Memory} {arguments : List Int32} {records : List Record}
  {function : String} {made : Except HostError Record} {r : Record} {answer : Option Int32}

/-- A call that makes a record and succeeds adds the record to the log. -/
lemma log_of_emit (hmade : made = .ok r)
    (hserved : (emit function context memory made).result = .ok answer) :
    (emit function context memory made).context.log = context.log.push r := by
  obtain ⟨r', hr', hemit⟩ := emit_of_ok hserved
  obtain rfl : r' = r := Except.ok.inj (hr'.symm.trans hmade)
  rw [hemit]

namespace HostFunction

variable {f : HostFunction}

/-- The records that a call emits: one that tells what the cited ranges hold, if the call succeeds
and is to leave a record, and none otherwise. -/
inductive Emits (f : HostFunction) (context : Context) (memory : Memory)
    (arguments : List Int32) : List Record → Prop
  | told {answer : Option Int32} {r : Record}
    (hserved : (f.run context memory arguments).result = .ok answer)
    (htells : Call.Tells ⟨memory, f, arguments⟩ r) : Emits f context memory arguments [r]
  | silent (hsilent : f.leavesRecord = false) : Emits f context memory arguments []
  | refused {e : HostError} (hrefused : (f.run context memory arguments).result = .error e) :
    Emits f context memory arguments []

/-- Each call emits some records or none. -/
lemma exists_emits (f : HostFunction) (context : Context) (memory : Memory)
    (arguments : List Int32) : ∃ records, f.Emits context memory arguments records := by
  rcases f.run_cases context memory arguments with hserved | ⟨e, hrefused, _⟩
  · obtain ⟨answer, hanswer⟩ := result_of_served hserved
    generalize f.run context memory arguments = reply at hserved
    cases hserved with
    | reasonLen _ => exact ⟨[], .silent rfl⟩
    | reason _ => exact ⟨[], .silent rfl⟩
    | sendTransaction htag hpayload _ => exact ⟨_, .told hanswer (.transaction htag hpayload)⟩
    | error hmessage _ => exact ⟨_, .told hanswer (.diagnostic hmessage)⟩
  · exact ⟨[], .refused (congrArg Reply.result hrefused)⟩

/-- What a call emits is what it adds to the log. -/
lemma Emits.log_eq (h : f.Emits context memory arguments records) :
    (f.run context memory arguments).context.log = records.foldl Log.push context.log := by
  cases h with
  | told hserved htells =>
    cases htells with
    | transaction htag hpayload =>
      exact log_of_emit (transactionRecord_eq_ok_iff.2 ⟨_, _, rfl, htag, hpayload⟩) hserved
    | diagnostic hmessage =>
      exact log_of_emit (diagnosticRecord_eq_ok_iff.2 ⟨_, rfl, hmessage⟩) hserved
  | silent hsilent =>
    rcases f.run_cases context memory arguments with hserved | ⟨e, hrefused, _⟩
    · generalize f.run context memory arguments = reply at hserved
      cases hserved with
      | reasonLen _ => rfl
      | reason _ => rfl
      | sendTransaction _ _ _ => cases hsilent
      | error _ _ => cases hsilent
    · rw [hrefused]
      rfl
  | refused hfails =>
    rcases f.run_cases context memory arguments with hserved | ⟨e, hrefused, _⟩
    · obtain ⟨answer, hanswer⟩ := result_of_served hserved
      cases hfails.symm.trans hanswer
    · rw [hrefused]
      rfl

end HostFunction

end Emitting

namespace State

variable {s : State} {calls : List Call}

/-- What is left of context and memory after an event. -/
def after (s : State) : Event → State
  | .call f arguments =>
    let reply := f.run s.context s.memory arguments
    ⟨reply.context, reply.memory⟩
  | .write offset data =>
    match s.memory.write offset data with
    | .ok memory => { s with memory := memory }
    | .error _ => s
  | .takeLog => { s with context := s.context.clearLog }

/-- What is left of context and memory after several events. -/
def afterAll (s : State) (events : List Event) : State := events.foldl after s

/-- The calls that succeeded since the log was last taken and are to leave a record, if `calls` are
those before the event. -/
def noted (s : State) (calls : List Call) : Event → List Call
  | .call f arguments =>
    match f.leavesRecord, (f.run s.context s.memory arguments).result with
    | true, .ok _ => calls ++ [⟨s.memory, f, arguments⟩]
    | _, _ => calls
  | .write _ _ => calls
  | .takeLog => []

/-- The calls that succeeded since the log was last taken and are to leave a record, if `calls` are
those before the events. -/
def notedAll : State → List Call → List Event → List Call
  | _, calls, [] => calls
  | s, calls, event :: events => (s.after event).notedAll (s.noted calls event) events

/-! ## One event -/

/-- A call that is refused changes nothing and is not noted. -/
lemma after_of_refused {f : HostFunction} {arguments : List Int32} {e : HostError}
    (h : f.run s.context s.memory arguments = refuse s.context s.memory e) (calls : List Call) :
    s.after (.call f arguments) = s ∧ s.noted calls (.call f arguments) = calls := by
  refine ⟨?_, ?_⟩
  · simp only [after, h]
    rfl
  · simp only [noted, h, refuse]
    cases f.leavesRecord <;> rfl

/-- What an event keeps: the reason, the limits, the capacity of the memory, and the contexts that
a host comes to hold. -/
structure Keeps (s s' : State) : Prop where
  /-- The reason is the same. -/
  reason : s'.context.reason = s.context.reason
  /-- The limits are the same. -/
  limits : s'.context.limits = s.context.limits
  /-- The memory has as many bytes. -/
  capacity : s'.memory.capacity = s.memory.capacity
  /-- The context comes about by recording and by taking the log. -/
  reachable : s.context.Reachable → s'.context.Reachable

/-- A state keeps what it has. -/
lemma Keeps.refl (s : State) : s.Keeps s := ⟨rfl, rfl, rfl, id⟩

/-- What is kept twice is kept. -/
lemma Keeps.trans {s s' s'' : State} (h : s.Keeps s') (h' : s'.Keeps s'') : s.Keeps s'' :=
  ⟨h'.reason.trans h.reason, h'.limits.trans h.limits, h'.capacity.trans h.capacity,
    h'.reachable ∘ h.reachable⟩

/-- A record keeps everything but the log. -/
lemma keeps_of_record {function : String} {r : Record} {context' : Context}
    (h : s.context.record function r = .ok context') : s.Keeps ⟨context', s.memory⟩ := by
  obtain ⟨_, hcontext⟩ := Context.record_eq_ok_iff.1 h
  refine ⟨?_, ?_, rfl, fun hs => .record function r hs h⟩
  · rw [hcontext]
  · rw [hcontext]

/-- Whatever happens, reason, limits and capacity stay. -/
lemma after_keeps (s : State) (event : Event) : s.Keeps (s.after event) := by
  cases event with
  | call f arguments =>
    rcases f.run_cases s.context s.memory arguments with hserved | ⟨e, hrefused, _⟩
    · rw [after]
      generalize f.run s.context s.memory arguments = reply at hserved
      cases hserved with
      | reasonLen _ => exact .refl s
      | reason hwrite => exact ⟨rfl, rfl, Memory.capacity_write hwrite, id⟩
      | sendTransaction _ _ hrecord => exact keeps_of_record hrecord
      | error _ hrecord => exact keeps_of_record hrecord
    · rw [(after_of_refused hrefused []).1]
      exact .refl s
  | write offset data =>
    rw [after]
    split
    next hwrite => exact ⟨rfl, rfl, Memory.capacity_write hwrite, id⟩
    next => exact .refl s
  | takeLog => exact ⟨rfl, rfl, rfl, .clearLog⟩

/-- The log holds `held` and after that one record for each of the calls. -/
def Logged (s : State) (held : List Record) (calls : List Call) : Prop :=
  ∃ records, List.Forall₂ Call.Tells calls records ∧ s.context.log.toList = held ++ records

/-- A record that is added tells of one call more. -/
lemma Logged.record {held : List Record} {call : Call} {function : String} {r : Record}
    {context' : Context} {memory' : Memory} (h : s.Logged held calls) (htells : call.Tells r)
    (hrecord : s.context.record function r = .ok context') :
    (⟨context', memory'⟩ : State).Logged held (calls ++ [call]) := by
  obtain ⟨records, hcalls, hlog⟩ := h
  obtain ⟨_, hcontext⟩ := Context.record_eq_ok_iff.1 hrecord
  refine ⟨records ++ [r], List.rel_append hcalls (.cons htells .nil), ?_⟩
  rw [hcontext, Log.toList_push, hlog, List.append_assoc]

/-- After an event the log tells of the calls that are noted then; what it held before is gone if it
was taken. -/
lemma Logged.after {held : List Record} (h : s.Logged held calls) (event : Event) :
    (s.after event).Logged (if event = .takeLog then [] else held) (s.noted calls event) := by
  cases event with
  | call f arguments =>
    rw [if_neg Event.noConfusion]
    rcases f.run_cases s.context s.memory arguments with hserved | ⟨e, hrefused, _⟩
    · rw [State.after, noted]
      generalize f.run s.context s.memory arguments = reply at hserved
      cases hserved with
      | reasonLen _ => exact h
      | reason _ => exact h
      | sendTransaction htag hpayload hrecord => exact h.record (.transaction htag hpayload) hrecord
      | error hmessage hrecord => exact h.record (.diagnostic hmessage) hrecord
    · obtain ⟨hafter, hnoted⟩ := after_of_refused hrefused calls
      rw [hafter, hnoted]
      exact h
  | write offset data =>
    rw [if_neg Event.noConfusion, State.after, noted]
    split
    · exact h
    · exact h
  | takeLog =>
    rw [if_pos rfl]
    exact ⟨[], .nil, rfl⟩

/-! ## Many events -/

/-- Whatever happens in turn, reason, limits and capacity stay. -/
lemma afterAll_keeps (s : State) (events : List Event) : s.Keeps (s.afterAll events) := by
  induction events generalizing s with
  | nil => exact .refl s
  | cons event events ih => exact (after_keeps s event).trans (ih (s.after event))

/-- After any events the log tells of the calls that are noted then; what it held before is gone if
it was taken in between. -/
lemma Logged.afterAll {held : List Record} (h : s.Logged held calls) (events : List Event) :
    (s.afterAll events).Logged (if .takeLog ∈ events then [] else held)
      (s.notedAll calls events) := by
  induction events generalizing s held calls with
  | nil => exact h
  | cons event events ih =>
    have hstep := ih (h.after event)
    have hheld : (if Event.takeLog ∈ events then [] else
        if event = .takeLog then [] else held) =
          if .takeLog ∈ event :: events then [] else held := by
      by_cases hmem : Event.takeLog ∈ events
      · rw [if_pos hmem, if_pos (List.mem_cons_of_mem _ hmem)]
      · rw [if_neg hmem]
        simp only [List.mem_cons, hmem, or_false, eq_comm]
    rw [hheld] at hstep
    exact hstep

/-- Whatever a guest calls, whatever the host writes to the memory, and whenever it takes the log:
the log is within the limits and counted, reason and capacity are the same as ever, and the log
tells exactly of the calls that succeeded since it was last taken and are to leave a record, each
by one record of what the cited ranges held at the time, in order, behind what the log had held
before if it was never taken. -/
theorem afterAll_log {context : Context} (hcontext : context.Reachable) (memory : Memory)
    (events : List Event) :
    let s := (⟨context, memory⟩ : State).afterAll events
    s.context.log.length ≤ context.limits.maxRecords.toNat ∧
      (s.context.log.bytes < UInt64.size → s.context.log.bytes ≤ context.limits.maxBytes.toNat) ∧
      s.context.log.bytes = (s.context.log.toList.map Record.size).sum ∧
      s.context.reason = context.reason ∧ s.memory.capacity = memory.capacity ∧
      ∃ records,
        List.Forall₂ Call.Tells ((⟨context, memory⟩ : State).notedAll [] events) records ∧
          s.context.log.toList =
            (if .takeLog ∈ events then [] else context.log.toList) ++ records := by
  intro s
  have hkeeps := afterAll_keeps ⟨context, memory⟩ events
  have hlimits := hkeeps.limits
  obtain ⟨hlength, hbytes, hcounted⟩ := (hkeeps.reachable hcontext).withinLimits
  rw [hlimits] at hlength hbytes
  refine ⟨hlength, fun hword => ?_, hcounted, hkeeps.reason, hkeeps.capacity, ?_⟩
  · have hmin : min s.context.log.bytes maxWord = s.context.log.bytes :=
      Nat.min_eq_left (Nat.le_sub_one_of_lt hword)
    rw [← hmin]
    exact hbytes
  · have hstart : (⟨context, memory⟩ : State).Logged context.log.toList [] :=
      ⟨[], .nil, (List.append_nil _).symm⟩
    exact hstart.afterAll events

/-- A guest with two bytes of memory and nothing recorded. -/
def sample : State := ⟨.new "{}".toUTF8 ⟨2, 8⟩, ⟨"ab".toUTF8⟩⟩

/-- Calls before and after the log is taken, one of them after the memory was changed and one that
is refused. -/
def sampleEvents : List Event :=
  [.call .error [0, 2], .takeLog, .write 0 "x".toUTF8, .call .error [0, 2],
    .call .sendTransaction [0, 1, 0, 3], .write 0 "y".toUTF8]

/-- Only the call is told that succeeded after the log was taken, with the bytes that it saw. -/
theorem afterAll_log_sample :
    sample.context.Reachable ∧ ∃ r, (sample.afterAll sampleEvents).context.log.toList = [r] ∧
      Call.Tells ⟨⟨"xb".toUTF8⟩, .error, [0, 2]⟩ r := by
  have hcontext : sample.context.Reachable := .new _ _
  have hnoted : sample.notedAll [] sampleEvents = [⟨⟨"xb".toUTF8⟩, .error, [0, 2]⟩] := by
    decide +kernel
  obtain ⟨_, _, _, _, _, records, htells, hlog⟩ :=
    afterAll_log hcontext sample.memory sampleEvents
  change List.Forall₂ _ (sample.notedAll [] sampleEvents) records at htells
  rw [hnoted] at htells
  obtain ⟨r, rest, hr, hrest, rfl⟩ := List.forall₂_cons_left_iff.1 htells
  rw [List.forall₂_nil_left_iff] at hrest
  rw [hrest] at hlog
  exact ⟨hcontext, r, hlog, hr⟩

end State

end ContractHost.Bridge
