import ContractHost.Proofs.Bridge.Delivery
import ContractHost.Proofs.Reason.Amount
import ContractHost.Proofs.Wasm.Life
import ContractHost.Proofs.Wasm.Stretch

/-!
# A contract that sends the amount back

The contract asks for the length of its reason, stores it at the beginning of its memory, and has
the reason copied to a fixed place.  Two bytes before the end of the reason it begins to go back,
byte by byte, until it finds a colon, and then it sends what stands between the colon and that end.

If a reason ends with a colon, digits and two braces (`EndsWith`), the scan looks at each of the
digits and then finds the colon (`runs_scan`, by induction on the digits that are left), however
much stands in front.  The fuel of a call is counted on the way, so that `EndsWith.exists_outcome`
says for every fuel, every context and every memory of one page how a run ends and which host
functions are called in it.
-/

namespace ContractHost.TransferBack

open Wasm Bridge

/-! ## The contract -/

/-- The text of the entry point. -/
def text : FunctionText where
  type := ⟨[], []⟩
  locals := [.i32, .i32, .i32]
  body :=
    ["call 0", "local.set 0", "i32.const 0", "local.get 0", "i32.store", "i32.const 2048",
      "call 1", "i32.const 2048", "local.get 0", "i32.add", "i32.const 2", "i32.sub",
      "local.tee 1", "local.set 2", "block", "loop", "local.get 2", "i32.const 1", "i32.sub",
      "local.tee 2", "i32.load8_u", "i32.const 58", "i32.eq", "br_if 1", "local.get 2",
      "i32.const 2048", "i32.gt_u", "br_if 0", "end", "unreachable", "end", "i32.const 1024",
      "i32.const 8", "local.get 2", "i32.const 1", "i32.add", "local.get 1", "local.get 2",
      "i32.sub", "i32.const 1", "i32.sub", "call 2"]

/-- A pass of the scan: it goes on to the byte before, and leaves the loop if that is a colon. -/
def pass : List Instr :=
  [.localGet 2, .const 1, .binary .sub, .localTee 2, .loadByte, .const 58, .binary .eq, .brIf 1,
    .localGet 2, .const 2048, .binary .gtU, .brIf 0]

/-- What is done behind the scan: the bytes between the colon and the end are sent. -/
def send : List Instr :=
  [.const 1024, .const 8, .localGet 2, .const 1, .binary .add, .localGet 1, .localGet 2,
    .binary .sub, .const 1, .binary .sub, .call 2]

/-- What is done behind the copying of the reason. -/
def find : List Instr :=
  [.const 2048, .localGet 0, .binary .add, .const 2, .binary .sub, .localTee 1, .localSet 2,
    .block [.loop pass, .unreachable]] ++ send

/-- The entry point. -/
def entryPoint : Function where
  params := 0
  results := 0
  locals := 3
  body := [.call 0, .localSet 0, .const 0, .localGet 0, .store, .const 2048, .call 1] ++ find

/-- The name of the entry point. -/
def entry : String := "contract_main"

/-- The tag of what is sent. -/
def tag : String := "transfer"

/-- The contract as its author wrote it. -/
def description : Description :=
  { Description.empty with
    imports := [⟨space, reasonLenName, .function ⟨[], [.i32]⟩⟩,
      ⟨space, reasonName, .function ⟨[.i32], []⟩⟩,
      ⟨space, sendTransactionName, .function ⟨[.i32, .i32, .i32, .i32], []⟩⟩,
      ⟨space, errorName, .function ⟨[.i32, .i32], []⟩⟩]
    memories := [⟨1, none⟩]
    functions := [text]
    exports := [⟨memoryExportName, .memory, 0⟩, ⟨entry, .function, 4⟩]
    data := [⟨1024, tag.toUTF8⟩] }

/-- The contract. -/
def contract : Module := ⟨description, #[entryPoint]⟩

/-- The lines of the text are the instructions of the entry point. -/
lemma assemble_text : assemble text.body = some entryPoint.body := by
  simp +decide [assemble, text, entryPoint, find, send, pass, Line.ofText, lineWords,
    String.splitOn, String.splitOnAux]
  rfl

/-- The contract is made of its description. -/
lemma ofSource_description : Module.ofSource (.description description) = .ok contract := by
  have hfunction : description.compileFunction text = some entryPoint :=
    Description.compileFunction_of_assemble assemble_text (by decide +kernel)
  have hfunctions : description.functions.mapM description.compileFunction = some [entryPoint] := by
    rw [show description.functions = [text] from rfl, List.mapM_cons, hfunction]
    rfl
  exact Module.ofSource_eq_ok (by decide +kernel) hfunctions rfl

/-- The functions of the bridge. -/
def bindings : List Binding :=
  [reasonLenBinding, reasonBinding, sendTransactionBinding, errorBinding]

/-- With the bridge the imports of the contract are its functions. -/
lemma link_contract : Bridge.registry.link contract.imports = .ok bindings := rfl

/-- The functions of the contract. -/
def program (limiter : Limiter) : Program :=
  ⟨bindings.toArray, #[entryPoint], addressablePages, limiter⟩

/-! ## The scan -/

variable {limiter : Limiter} {fuel : Nat} {memory : Memory} {context : Context} {len stop : UInt32}

/-- The entry point on its way: what is left of its fuel, the memory, the context, the code, the
operands and the blocks around it, and its variables: the length of the reason, the end of the
amount, and where the scan stands. -/
def running (fuel : Nat) (memory : Memory) (context : Context) (code : List Instr)
    (stack : List UInt32) (labels : List Label) (len stop place : UInt32) : Machine :=
  ⟨fuel, memory, context, ⟨code, stack, labels, #[len, stop, place], 0⟩, []⟩

/-- The loop of the scan, under the block that it leaves when it finds a colon. -/
def scanLabels : List Label := [⟨[.unreachable], [], some pass⟩, ⟨send, [], none⟩]

/-- A pass begins. -/
def scanning (fuel : Nat) (memory : Memory) (context : Context) (len stop place : UInt32) :
    Machine := running fuel memory context pass [] scanLabels len stop place

/-- The scan is over. -/
def sending (fuel : Nat) (memory : Memory) (context : Context) (len stop place : UInt32) :
    Machine := running fuel memory context send [] [] len stop place

/-- A pass looks at the byte before the place where it begins. -/
lemma leadsTo_compared {k : Nat} {b : UInt8} (hk : k < UInt32.size)
    (hbyte : memory.bytes[k]? = some b) :
    Machine.LeadsTo (program limiter)
      (scanning fuel memory context len stop (UInt32.ofNat (k + 1))) []
      (running (fuel - 7) memory context (pass.drop 7) [truth (b.toUInt32 = 58)] scanLabels len
        stop (UInt32.ofNat k)) := by
  have hplace : UInt32.ofNat (k + 1) - 1 = UInt32.ofNat k := by
    rw [UInt32.ofNat_add]
    exact UInt32.add_sub_cancel _ _
  have hread : Machine.LeadsTo (program limiter)
      (scanning fuel memory context len stop (UInt32.ofNat (k + 1))) []
      (running (fuel - 4) memory context (pass.drop 4) [UInt32.ofNat (k + 1) - 1] scanLabels len
        stop (UInt32.ofNat (k + 1) - 1)) := Machine.leadsTo_of_advance (n := 4) rfl
  rw [hplace] at hread
  have hnat : (UInt32.ofNat k).toNat = k := UInt32.toNat_ofNat_of_lt' hk
  refine hread.trans ((Machine.leadsTo_of_loadByte rfl rfl ?_).trans
    (Machine.leadsTo_of_advance (n := 2) rfl))
  exact hnat.symm ▸ hbyte

/-- A pass that finds a colon is the last. -/
lemma leadsTo_found {k : Nat} (hk : k < UInt32.size)
    (hbyte : memory.bytes[k]? = some Json.Byte.colon) :
    Machine.LeadsTo (program limiter)
      (scanning fuel memory context len stop (UInt32.ofNat (k + 1))) []
      (sending (fuel - 8) memory context len stop (UInt32.ofNat k)) :=
  (leadsTo_compared hk hbyte).trans (Machine.leadsTo_of_advance (n := 1) rfl)

/-- A pass that finds another byte behind the beginning of the reason comes to its end, where the
next begins if there is fuel. -/
lemma leadsTo_missed {k : Nat} {b : UInt8} (hk : k < UInt32.size) (hstart : 2048 < k)
    (hbyte : memory.bytes[k]? = some b) (hb : b ≠ Json.Byte.colon) :
    Machine.LeadsTo (program limiter)
      (scanning fuel memory context len stop (UInt32.ofNat (k + 1))) []
      (running (fuel - 11) memory context [.brIf 0] [1] scanLabels len stop (UInt32.ofNat k)) := by
  have hother : truth (b.toUInt32 = 58) = 0 := by
    have hne : b.toUInt32 ≠ 58 := fun h => hb (UInt8.toUInt32_inj.1 h)
    rw [truth, decide_eq_false hne]
    rfl
  have hbehind : truth (2048 < UInt32.ofNat k) = 1 := by
    have hlt : (2048 : UInt32) < UInt32.ofNat k := by
      rw [UInt32.lt_iff_toNat_lt, UInt32.toNat_ofNat_of_lt' hk]
      exact hstart
    rw [truth, decide_eq_true hlt]
    rfl
  have hcompared : Machine.LeadsTo (program limiter)
      (scanning fuel memory context len stop (UInt32.ofNat (k + 1))) []
      (running (fuel - 7) memory context (pass.drop 7) [truth (b.toUInt32 = 58)] scanLabels len
        stop (UInt32.ofNat k)) := leadsTo_compared hk hbyte
  rw [hother] at hcompared
  have hnext : Machine.LeadsTo (program limiter)
      (running (fuel - 7) memory context (pass.drop 7) [0] scanLabels len stop (UInt32.ofNat k)) []
      (running (fuel - 11) memory context [.brIf 0] [truth (2048 < UInt32.ofNat k)] scanLabels len
        stop (UInt32.ofNat k)) := Machine.leadsTo_of_advance (n := 4) rfl
  rw [hbehind] at hnext
  exact hcompared.trans hnext

/-- Behind a pass that found no colon the next begins, or the call ends for want of fuel. -/
lemma runs_again {place : UInt32} :
    (12 < fuel → Machine.LeadsTo (program limiter)
      (running (fuel - 11) memory context [.brIf 0] [1] scanLabels len stop place) []
      (scanning (fuel - 12) memory context len stop place)) ∧
    (fuel ≤ 12 → Machine.EndsIn (program limiter)
      (running (fuel - 11) memory context [.brIf 0] [1] scanLabels len stop place) []
      ⟨0, memory, context, .fuelExhausted⟩) := by
  have hstep : (running (fuel - 11) memory context [.brIf 0] [1] scanLabels len stop place).step
      (program limiter) = (running (fuel - 12) memory context [] [] scanLabels len stop
        place).enterLoop pass ⟨[.unreachable], [], some pass⟩ [⟨send, [], none⟩] := rfl
  constructor
  · intro hfuel
    exact Machine.leadsTo_of_enterLoop rfl hstep (Nat.sub_ne_zero_of_lt hfuel)
  · intro hfuel
    exact Machine.endsIn_of_enterLoop rfl hstep (Nat.sub_eq_zero_of_le hfuel)

/-- With bytes other than colons behind a colon that does not stand before the reason, the scan
comes to the colon; each byte costs a pass, and if the fuel does not last for so many the call ends
for want of it. -/
lemma runs_scan {colon n : Nat} (hstart : 2048 ≤ colon) (hstop : colon + n < UInt32.size)
    (hcolon : memory.bytes[colon]? = some Json.Byte.colon)
    (hothers : ∀ k, colon < k → k ≤ colon + n →
      ∃ b, memory.bytes[k]? = some b ∧ b ≠ Json.Byte.colon) :
    (12 * n < fuel → Machine.LeadsTo (program limiter)
      (scanning fuel memory context len stop (UInt32.ofNat (colon + n + 1))) []
      (sending (fuel - 12 * n - 8) memory context len stop (UInt32.ofNat colon))) ∧
    (0 < fuel → fuel ≤ 12 * n → Machine.EndsIn (program limiter)
      (scanning fuel memory context len stop (UInt32.ofNat (colon + n + 1))) []
      ⟨0, memory, context, .fuelExhausted⟩) := by
  -- The induction is on the bytes between the colon and the place of the scan: a pass over the last
  -- of them leaves one less, and 12 units of fuel less.
  induction n generalizing fuel with
  | zero =>
    refine ⟨fun _ => leadsTo_found hstop hcolon, fun hpos hnone => ?_⟩
    exact absurd hpos (Nat.not_lt.2 hnone)
  | succ n ih =>
    obtain ⟨b, hbyte, hb⟩ := hothers (colon + (n + 1)) (by omega) (Nat.le_refl _)
    have hmissed : Machine.LeadsTo (program limiter)
        (scanning fuel memory context len stop (UInt32.ofNat (colon + (n + 1) + 1))) []
        (running (fuel - 11) memory context [.brIf 0] [1] scanLabels len stop
          (UInt32.ofNat (colon + (n + 1)))) := leadsTo_missed hstop (by omega) hbyte hb
    obtain ⟨hfinds, hlacks⟩ := @ih (fuel - 12) (by omega) fun k hk hle => hothers k hk (by omega)
    constructor
    · intro hfuel
      have hrest := hmissed.trans ((runs_again.1 (by omega)).trans (hfinds (by omega)))
      rw [show fuel - 12 - 12 * n - 8 = fuel - 12 * (n + 1) - 8 by omega] at hrest
      exact hrest
    · intro hpos hfuel
      by_cases hlittle : fuel ≤ 12
      · exact hmissed.endsIn (runs_again.2 hlittle)
      · exact hmissed.endsIn ((runs_again.1 (by omega)).endsIn (hlacks (by omega) (by omega)))

/-! ## Before the scan -/

/-- The length of a reason as a word. -/
def lengthWord (r : ByteArray) : UInt32 := UInt32.ofNat r.size

/-- The memory with the length of the reason at its beginning. -/
def measured (memory : Memory) (r : ByteArray) : Memory :=
  memory.splice 0 (wordBytes (lengthWord r))

/-- The memory with the reason behind its length. -/
def copied (memory : Memory) (r : ByteArray) : Memory := (measured memory r).splice 2048 r

/-- The first call of a host function, for the length of the reason. -/
def lengthCall (memory : Memory) (context : Context) : HostCall :=
  ⟨reasonLenBinding, context, memory, []⟩

/-- The second call of a host function, which copies the reason. -/
def copyCall (memory : Memory) (context : Context) : HostCall :=
  ⟨reasonBinding, context, measured memory context.reason, [2048]⟩

/-- The last call of a host function, which sends bytes of the memory. -/
def sendCall (memory : Memory) (context : Context) (place length : Nat) : HostCall :=
  ⟨sendTransactionBinding, context, copied memory context.reason,
    [1024, 8, Int32.ofNat place, Int32.ofNat length]⟩

/-- The entry point when it has stored the length and is about to have the reason copied. -/
def copying (fuel : Nat) (memory : Memory) (context : Context) : Machine :=
  running (fuel - 7) (measured memory context.reason) context (.call 1 :: find) [2048] []
    (lengthWord context.reason) 0 0

/-- A reason of which the length is no word that a guest can be told ends the call. -/
lemma endsIn_of_tooLarge (hsize : Context.maxInt32 < context.reason.size) :
    ∃ left, Machine.EndsIn (program limiter) (Program.machine entryPoint fuel memory context)
      [lengthCall memory context]
      ⟨left, memory, context, .refused (.reasonTooLarge context.reason.size)⟩ := by
  have hreply : (Program.machine entryPoint fuel memory context).replyOf reasonLenBinding [] =
      ⟨context, memory, .error (.reasonTooLarge context.reason.size)⟩ := by
    change (⟨context, memory, context.reasonLength.map some⟩ : Reply) = _
    rw [Context.reasonLength, if_neg (Nat.not_le.2 hsize)]
    rfl
  exact Machine.endsIn_of_refused rfl rfl rfl hreply

/-- The length of any other reason is stored at the beginning of the memory. -/
lemma leadsTo_copying (hsize : context.reason.size ≤ Context.maxInt32)
    (hroom : 4 ≤ memory.capacity) :
    Machine.LeadsTo (program limiter) (Program.machine entryPoint fuel memory context)
      [lengthCall memory context] (copying fuel memory context) := by
  have hreply : (Program.machine entryPoint fuel memory context).replyOf reasonLenBinding [] =
      ⟨context, memory, .ok (some (Int32.ofNat context.reason.size))⟩ :=
    run_reasonLen hsize memory
  have hserved := Machine.leadsTo_of_served (p := program limiter) rfl rfl rfl hreply rfl
  refine hserved.trans ((Machine.leadsTo_of_advance (n := 3) rfl).trans
    ((Machine.leadsTo_of_store rfl rfl ?_).trans (Machine.leadsTo_of_advance (n := 1) rfl)))
  exact hroom

/-- Where the length was stored, the memory has its capacity still. -/
lemma capacity_measured (hroom : 4 ≤ memory.capacity) (r : ByteArray) :
    (measured memory r).capacity = memory.capacity := by
  refine Memory.capacity_splice memory 0 _ ?_
  rw [Nat.zero_add]
  exact hroom

/-- A reason that does not fit behind its length ends the call. -/
lemma endsIn_of_tooLong (hroom : 4 ≤ memory.capacity)
    (hlong : memory.capacity < 2048 + context.reason.size) :
    ∃ left, Machine.EndsIn (program limiter) (copying fuel memory context)
      [copyCall memory context] ⟨left, measured memory context.reason, context,
        .refused (.bounds reasonName ⟨2048, context.reason.size, memory.capacity⟩)⟩ := by
  have hcapacity := capacity_measured hroom context.reason
  have hwrite : (measured memory context.reason).write 2048 context.reason =
      .error ⟨2048, context.reason.size, memory.capacity⟩ := by
    have houtside : ¬(measured memory context.reason).InBounds (2048 : Int32).toInt
        context.reason.size := by
      rintro ⟨-, -, hend⟩
      rw [show (2048 : Int32).toInt = 2048 from rfl] at hend
      omega
    rw [Memory.write, if_neg houtside, hcapacity]
    rfl
  have hreply : (copying fuel memory context).replyOf reasonBinding [2048] =
      ⟨context, measured memory context.reason,
        .error (.bounds reasonName ⟨2048, context.reason.size, memory.capacity⟩)⟩ :=
    run_reason_of_refused hwrite
  exact Machine.endsIn_of_refused rfl rfl rfl hreply

/-- A reason that fits is copied. -/
lemma leadsTo_copied (hroom : 4 ≤ memory.capacity)
    (hfits : 2048 + context.reason.size ≤ memory.capacity) :
    Machine.LeadsTo (program limiter) (copying fuel memory context) [copyCall memory context]
      (running (fuel - 8) (copied memory context.reason) context find [] []
        (lengthWord context.reason) 0 0) := by
  have hcapacity := capacity_measured hroom context.reason
  have hwrite : (measured memory context.reason).write 2048 context.reason =
      .ok (copied memory context.reason) := by
    refine Memory.write_eq_ok_iff.2 ⟨⟨by decide, Int.natCast_nonneg _, ?_⟩, rfl⟩
    rw [show (2048 : Int32).toInt = 2048 from rfl]
    omega
  have hreply : (copying fuel memory context).replyOf reasonBinding [2048] =
      ⟨context, copied memory context.reason, .ok none⟩ := run_reason_of_write hwrite
  exact Machine.leadsTo_of_served rfl rfl rfl hreply rfl

/-- The scan begins two bytes before the end of the reason, if there is fuel. -/
lemma runs_begin {stop : UInt32} (hstop : 2048 + len - 2 = stop) :
    (15 < fuel → Machine.LeadsTo (program limiter)
      (running (fuel - 8) memory context find [] [] len 0 0) []
      (scanning (fuel - 15) memory context len stop stop)) ∧
    (fuel ≤ 15 → Machine.EndsIn (program limiter)
      (running (fuel - 8) memory context find [] [] len 0 0) []
      ⟨0, memory, context, .fuelExhausted⟩) := by
  subst hstop
  have hloop : Machine.LeadsTo (program limiter)
      (running (fuel - 8) memory context find [] [] len 0 0) []
      (running (fuel - 15) memory context [.loop pass, .unreachable] [] [⟨send, [], none⟩] len
        (2048 + len - 2) (2048 + len - 2)) := Machine.leadsTo_of_advance (n := 8) rfl
  have hstep : (running (fuel - 15) memory context [.loop pass, .unreachable] []
      [⟨send, [], none⟩] len (2048 + len - 2) (2048 + len - 2)).step (program limiter) =
        (running (fuel - 15) memory context [] [] [⟨send, [], none⟩] len (2048 + len - 2)
          (2048 + len - 2)).enterLoop pass ⟨[.unreachable], [], some pass⟩ [⟨send, [], none⟩] := rfl
  constructor
  · intro hfuel
    exact hloop.trans (Machine.leadsTo_of_enterLoop rfl hstep (Nat.sub_ne_zero_of_lt hfuel))
  · intro hfuel
    exact hloop.endsIn (Machine.endsIn_of_enterLoop rfl hstep (Nat.sub_eq_zero_of_le hfuel))

/-! ## Behind the scan -/

/-- How a call ends that records something in the end: with the record in the log, or refused. -/
def recording (context : Context) (r : Record) : Context × Stop :=
  match context.record sendTransactionName r with
  | .ok context' => (context', .finished)
  | .error e => (context, .refused e)

/-- The bytes between the colon and the end are sent: what is recorded has them as its payload, and
as its tag what stands in the place of the tag. -/
lemma endsIn_sent (limiter : Limiter) (fuel : Nat) (context : Context) (len : UInt32)
    {colon n : Nat} {name : String} {payload : ByteArray} (hend : colon + n + 1 < 2 ^ 31)
    (htag : memory.Holds 1024 8 name.toUTF8)
    (hpayload : memory.Holds (colon + 1) n payload) :
    ∃ left, Machine.EndsIn (program limiter)
      (sending fuel memory context len (UInt32.ofNat (colon + n + 1)) (UInt32.ofNat colon))
      [⟨sendTransactionBinding, context, memory,
        [1024, 8, Int32.ofNat (colon + 1), Int32.ofNat n]⟩]
      ⟨left, memory, (recording context (.transaction name payload)).1,
        (recording context (.transaction name payload)).2⟩ := by
  have hplace : UInt32.ofNat colon + 1 = UInt32.ofNat (colon + 1) := (UInt32.ofNat_add _ _).symm
  have hlength : UInt32.ofNat (colon + n + 1) - UInt32.ofNat colon - 1 = UInt32.ofNat n := by
    rw [← UInt32.ofNat_sub (by omega), show colon + n + 1 - colon = n + 1 by omega,
      UInt32.ofNat_add]
    exact UInt32.add_sub_cancel _ _
  have hoperands : Machine.LeadsTo (program limiter)
      (sending fuel memory context len (UInt32.ofNat (colon + n + 1)) (UInt32.ofNat colon)) []
      (running (fuel - 10) memory context [.call 2]
        [UInt32.ofNat (colon + n + 1) - UInt32.ofNat colon - 1, UInt32.ofNat colon + 1, 8, 1024] []
        len (UInt32.ofNat (colon + n + 1)) (UInt32.ofNat colon)) :=
    Machine.leadsTo_of_advance (n := 10) rfl
  rw [hlength, hplace] at hoperands
  have hmade : transactionRecord memory 1024 8 (Int32.ofNat (colon + 1)) (Int32.ofNat n) =
      .ok (.transaction name payload) := by
    refine transactionRecord_eq_ok_iff.2 ⟨name, payload, rfl, htag, ?_⟩
    rw [Int32.toInt_ofNat_of_lt (by omega), Int32.toInt_ofNat_of_lt (by omega)]
    exact hpayload
  have hreply : (running (fuel - 10) memory context [.call 2]
        [UInt32.ofNat n, UInt32.ofNat (colon + 1), 8, 1024] [] len (UInt32.ofNat (colon + n + 1))
        (UInt32.ofNat colon)).replyOf sendTransactionBinding
          [1024, 8, UInt32.ofNat (colon + 1), UInt32.ofNat n] =
      emit sendTransactionName context memory (.ok (.transaction name payload)) := by
    rw [← hmade]
    rfl
  unfold recording
  cases hrecord : context.record sendTransactionName (.transaction name payload) with
  | error e =>
    rw [emit, hrecord] at hreply
    obtain ⟨left, hrefused⟩ := Machine.endsIn_of_refused (p := program limiter) rfl rfl rfl hreply
    exact ⟨left, hoperands.endsIn hrefused⟩
  | ok context' =>
    rw [emit, hrecord] at hreply
    have hserved := Machine.leadsTo_of_served (p := program limiter) rfl rfl rfl hreply rfl
    exact ⟨_, hoperands.endsIn (hserved.endsIn (Machine.endsIn_of_halt rfl))⟩

/-! ## The whole run -/

/-- A reason that ends with a colon, digits and two braces, with what stands in front of them. -/
structure EndsWith (r : ByteArray) (front digits : List UInt8) : Prop where
  /-- What the reason consists of. -/
  bytes_eq : r.data.toList =
    front ++ Json.Byte.colon :: (digits ++ [Json.Byte.closeBrace, Json.Byte.closeBrace])
  /-- There is no colon behind the last. -/
  not_mem : Json.Byte.colon ∉ digits

variable {r : ByteArray} {front digits : List UInt8}

namespace EndsWith

/-- How many bytes the reason has. -/
lemma size_eq (h : EndsWith r front digits) : r.size = front.length + digits.length + 3 := by
  have hlength : r.data.toList.length = r.size := Array.length_toList
  rw [h.bytes_eq] at hlength
  simp only [List.length_append, List.length_cons, List.length_nil] at hlength
  omega

/-- A byte of the reason is one of the list. -/
lemma getElem?_eq (h : EndsWith r front digits) (k : Nat) : r[k]? =
    (front ++ Json.Byte.colon ::
      (digits ++ [Json.Byte.closeBrace, Json.Byte.closeBrace]))[k]? := by
  rw [← h.bytes_eq, Array.getElem?_toList]
  rfl

/-- Behind what stands in front there is the colon. -/
lemma getElem?_colon (h : EndsWith r front digits) :
    r[front.length]? = some Json.Byte.colon := by
  rw [h.getElem?_eq, List.getElem?_append_right (Nat.le_refl _), Nat.sub_self]
  rfl

/-- Behind the colon there are the digits. -/
lemma getElem?_digits (h : EndsWith r front digits) {k : Nat} (hk : k < digits.length) :
    r[front.length + 1 + k]? = digits[k]? := by
  rw [h.getElem?_eq, List.getElem?_append_right (by omega),
    show front.length + 1 + k - front.length = k + 1 by omega, List.getElem?_cons_succ,
    List.getElem?_append_left hk]

/-- The digits are what a search for the colon finds that begins before the two braces and goes
back. -/
lemma eq_reverse_takeWhile (h : EndsWith r front digits) : digits =
    ((r.data.toList.reverse.drop 2).takeWhile (· ≠ Json.Byte.colon)).reverse := by
  have hdigits : ∀ b ∈ digits.reverse, decide (b ≠ Json.Byte.colon) = true := by
    intro b hb
    refine decide_eq_true fun hcolon => h.not_mem ?_
    rw [← hcolon]
    exact List.mem_reverse.1 hb
  have hback : r.data.toList.reverse.drop 2 =
      digits.reverse ++ Json.Byte.colon :: front.reverse := by
    rw [h.bytes_eq]
    simp
  rw [hback, List.takeWhile_append_of_pos hdigits, List.takeWhile_cons_of_neg (by decide),
    List.append_nil, List.reverse_reverse]

end EndsWith

/-- The reason stands in the memory to which it was copied. -/
lemma getElem?_copied (hfits : 2048 + r.size ≤ memory.capacity) {k : Nat} (hk : k < r.size) :
    (copied memory r).bytes[2048 + k]? = r[k]? := by
  have hcapacity : (measured memory r).capacity = memory.capacity := capacity_measured (by omega) r
  rw [copied, Memory.getElem?_splice (by omega), if_pos ⟨by omega, by omega⟩,
    Nat.add_sub_cancel_left]

/-- Behind the length nothing changes when it is stored. -/
lemma getElem?_measured (hroom : 4 ≤ memory.capacity) {k : Nat} (hk : 4 ≤ k) :
    (measured memory r).bytes[k]? = memory.bytes[k]? := by
  have hword : (wordBytes (lengthWord r)).size = 4 := rfl
  rw [measured, Memory.getElem?_splice (by omega), if_neg (by omega)]

/-- Between the length and the reason nothing changes when that is copied. -/
lemma getElem?_copied_between (hfits : 2048 + r.size ≤ memory.capacity) {k : Nat} (hk : 4 ≤ k)
    (hk' : k < 2048) : (copied memory r).bytes[k]? = memory.bytes[k]? := by
  have hcapacity : (measured memory r).capacity = memory.capacity := capacity_measured (by omega) r
  rw [copied, Memory.getElem?_splice (by omega), if_neg (by omega), getElem?_measured (by omega) hk]

/-- The memory to which the reason was copied has its capacity still. -/
lemma capacity_copied (hfits : 2048 + r.size ≤ memory.capacity) :
    (copied memory r).capacity = memory.capacity := by
  have hcapacity : (measured memory r).capacity = memory.capacity := capacity_measured (by omega) r
  rw [copied, Memory.capacity_splice _ _ _ (by omega), hcapacity]

/-- The digits stand in the memory behind the colon. -/
lemma EndsWith.holds_copied (h : EndsWith r front digits)
    (hfits : 2048 + r.size ≤ memory.capacity) :
    (copied memory r).Holds (2048 + front.length + 1 : Nat) digits.length ⟨digits.toArray⟩ := by
  have hsize := h.size_eq
  have hcapacity := capacity_copied hfits
  refine ⟨⟨by omega, by omega, by omega⟩, ?_, fun k hk => ?_⟩
  · rw [Int.toNat_natCast]
    exact List.size_toArray
  · have hk' : k < digits.length := hk
    have hplace : 2048 + front.length + 1 + k = 2048 + (front.length + 1 + k) := by omega
    rw [Int.toNat_natCast, hplace, getElem?_copied hfits (by omega), h.getElem?_digits hk']
    exact List.getElem?_toArray

/-- What stands in the place of the tag stays there. -/
lemma holds_tag_of_agree {memory' : Memory} (h : memory.Holds 1024 8 tag.toUTF8)
    (hcapacity : memory'.capacity = memory.capacity)
    (hagree : ∀ k, 4 ≤ k → k < 2048 → memory'.bytes[k]? = memory.bytes[k]?) :
    memory'.Holds 1024 8 tag.toUTF8 := by
  obtain ⟨⟨-, -, hend⟩, hsize, hbytes⟩ := h
  refine ⟨⟨by decide, by decide, by omega⟩, hsize, fun k hk => ?_⟩
  have hk' : k < 8 := by
    rw [hsize] at hk
    exact hk
  rw [hbytes k hk]
  exact (hagree (1024 + k) (by omega) (by omega)).symm

/-- How a call of the entry point ends that is given the fuel, the memory and the context, with a
reason that ends with the digits; and the host functions that are called in it.  Before the scan 15
units of fuel are burnt, and each digit that the scan passes burns 12. -/
inductive Outcome (fuel : Nat) (memory : Memory) (context : Context) (front digits : List UInt8) :
    List HostCall → Halt → Prop
  /-- Without fuel nothing is done. -/
  | idle (hfuel : fuel = 0) :
    Outcome fuel memory context front digits [] ⟨0, memory, context, .fuelExhausted⟩
  /-- The length of the reason is no word that a guest can be told. -/
  | tooLarge {left : Nat} (hfuel : 0 < fuel) (hsize : Context.maxInt32 < context.reason.size) :
    Outcome fuel memory context front digits [lengthCall memory context]
      ⟨left, memory, context, .refused (.reasonTooLarge context.reason.size)⟩
  /-- The memory has no room for the reason. -/
  | tooLong {left : Nat} (hfuel : 0 < fuel) (hsize : context.reason.size ≤ Context.maxInt32)
    (hlong : memory.capacity < 2048 + context.reason.size) :
    Outcome fuel memory context front digits [lengthCall memory context, copyCall memory context]
      ⟨left, measured memory context.reason, context,
        .refused (.bounds reasonName ⟨2048, context.reason.size, memory.capacity⟩)⟩
  /-- The reason is copied, but the fuel does not last for the scan. -/
  | exhausted (hfuel : 0 < fuel) (hfits : 2048 + context.reason.size ≤ memory.capacity)
    (hlittle : fuel ≤ 15 + 12 * digits.length) :
    Outcome fuel memory context front digits [lengthCall memory context, copyCall memory context]
      ⟨0, copied memory context.reason, context, .fuelExhausted⟩
  /-- The digits are sent from where they stand behind the colon. -/
  | sent {left : Nat} (hfuel : 15 + 12 * digits.length < fuel)
    (hfits : 2048 + context.reason.size ≤ memory.capacity)
    (hdigits : (copied memory context.reason).Holds (2048 + front.length + 1 : Nat) digits.length
      ⟨digits.toArray⟩) :
    Outcome fuel memory context front digits
      [lengthCall memory context, copyCall memory context,
        sendCall memory context (2048 + front.length + 1) digits.length]
      ⟨left, copied memory context.reason,
        (recording context (.transaction tag ⟨digits.toArray⟩)).1,
        (recording context (.transaction tag ⟨digits.toArray⟩)).2⟩

/-- The end of the amount is found from the length of the reason. -/
lemma EndsWith.stop_eq (h : EndsWith r front digits) : 2048 + lengthWord r - 2 =
    UInt32.ofNat (2048 + front.length + digits.length + 1) := by
  have hsize := h.size_eq
  have hadd : 2048 + lengthWord r = UInt32.ofNat (2048 + r.size) := (UInt32.ofNat_add _ _).symm
  rw [hadd, show (2 : UInt32) = UInt32.ofNat 2 from rfl, ← UInt32.ofNat_sub (by omega)]
  congr 1
  omega

/-- With the reason copied, the scan stops at its last colon, and the digits behind it are sent; or
the fuel does not last for it. -/
lemma EndsWith.runs_find (h : EndsWith context.reason front digits)
    (hcapacity : memory.capacity = pageSize)
    (hfits : 2048 + context.reason.size ≤ memory.capacity)
    (htag : memory.Holds 1024 8 tag.toUTF8) :
    let found := running (fuel - 8) (copied memory context.reason) context find [] []
      (lengthWord context.reason) 0 0
    (15 + 12 * digits.length < fuel → ∃ left, Machine.EndsIn (program limiter) found
      [sendCall memory context (2048 + front.length + 1) digits.length]
      ⟨left, copied memory context.reason,
        (recording context (.transaction tag ⟨digits.toArray⟩)).1,
        (recording context (.transaction tag ⟨digits.toArray⟩)).2⟩) ∧
    (fuel ≤ 15 + 12 * digits.length → Machine.EndsIn (program limiter) found []
      ⟨0, copied memory context.reason, context, .fuelExhausted⟩) := by
  intro found
  have hsize := h.size_eq
  have hpage : pageSize = 65536 := rfl
  have hword : UInt32.size = 4294967296 := rfl
  have hcolon : (copied memory context.reason).bytes[2048 + front.length]? =
      some Json.Byte.colon := by
    rw [getElem?_copied hfits (by omega), h.getElem?_colon]
  -- What the scan sees before it comes to the colon are the digits, from the last to the first.
  have hothers : ∀ k, 2048 + front.length < k → k ≤ 2048 + front.length + digits.length →
      ∃ b, (copied memory context.reason).bytes[k]? = some b ∧ b ≠ Json.Byte.colon := by
    intro k hk hle
    obtain ⟨j, rfl⟩ : ∃ j, k = 2048 + (front.length + 1 + j) :=
      ⟨k - (2048 + front.length + 1), by omega⟩
    have hj : j < digits.length := by omega
    refine ⟨digits[j], ?_, fun hb => h.not_mem (hb ▸ List.getElem_mem hj)⟩
    rw [getElem?_copied hfits (by omega), h.getElem?_digits hj, List.getElem?_eq_getElem hj]
  constructor
  · intro hfuel
    have htag' := holds_tag_of_agree htag (capacity_copied hfits)
      fun k hk hk' => getElem?_copied_between hfits hk hk'
    obtain ⟨left, hsent⟩ := endsIn_sent limiter (fuel - 15 - 12 * digits.length - 8) context
      (lengthWord context.reason) (by omega) htag' (h.holds_copied hfits)
    refine ⟨left, ((runs_begin h.stop_eq).1 (by omega)).endsIn ?_⟩
    exact ((runs_scan (by omega) (by omega) hcolon hothers).1 (by omega)).endsIn hsent
  · intro hfuel
    rcases Nat.lt_or_ge 15 fuel with hmuch | hlittle
    · refine ((runs_begin h.stop_eq).1 hmuch).endsIn ?_
      exact (runs_scan (by omega) (by omega) hcolon hothers).2 (by omega) (by omega)
    · exact (runs_begin h.stop_eq).2 hlittle

/-- A run of the entry point in a memory of one page that has the tag ends in one of these ways. -/
lemma EndsWith.exists_outcome (h : EndsWith context.reason front digits) (limiter : Limiter)
    (hfuel : 0 < fuel) (hcapacity : memory.capacity = pageSize)
    (htag : memory.Holds 1024 8 tag.toUTF8) :
    ∃ calls halt, Outcome fuel memory context front digits calls halt ∧
      Machine.EndsIn (program limiter) (Program.machine entryPoint fuel memory context) calls
        halt := by
  have hpage : pageSize = 65536 := rfl
  have hroom : 4 ≤ memory.capacity := by omega
  rcases Nat.lt_or_ge Context.maxInt32 context.reason.size with hlarge | hsize
  · obtain ⟨left, hends⟩ := endsIn_of_tooLarge hlarge
    exact ⟨_, _, .tooLarge hfuel hlarge, hends⟩
  rcases Nat.lt_or_ge memory.capacity (2048 + context.reason.size) with hlong | hfits
  · obtain ⟨left, hends⟩ := endsIn_of_tooLong hroom hlong
    exact ⟨_, _, .tooLong hfuel hsize hlong, (leadsTo_copying hsize hroom).endsIn hends⟩
  obtain ⟨hsends, hlacks⟩ := h.runs_find hcapacity hfits htag
  rcases Nat.lt_or_ge (15 + 12 * digits.length) fuel with hmuch | hlittle
  · obtain ⟨left, hends⟩ := hsends hmuch
    exact ⟨_, _, .sent hmuch hfits (h.holds_copied hfits),
      (leadsTo_copying hsize hroom).endsIn ((leadsTo_copied hroom hfits).endsIn hends)⟩
  · exact ⟨_, _, .exhausted hfuel hfits hlittle,
      (leadsTo_copying hsize hroom).endsIn
        ((leadsTo_copied hroom hfits).endsIn (hlacks hlittle))⟩

end ContractHost.TransferBack
