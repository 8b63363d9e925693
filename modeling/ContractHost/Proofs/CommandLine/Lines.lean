import ContractHost.Proofs.CommandLine.Output
import ContractHost.Proofs.Text.Lossy
import ContractHost.Proofs.Text.Quoted

/-!
# Lines and records

What a run prints is the text of its records, each with a line feed behind it.  A transaction is
printed with tag and payload quoted and so on one line, whatever these hold.  The message of a
diagnostic is printed as it is, so a diagnostic takes one line more for each line feed in it
(`Record.count_line`, `CommandLine.linesOf_printed`).  The lines that are printed correspond to the
records one by one just if no message holds a line feed; otherwise a diagnostic can look like other
records behind it, transactions included (`CommandLine.Outcome.Shows.lines_correspond`).

Quoted text can be read back in one way only, so a line tells whether the record is a transaction,
and then its tag and the text of its payload, or else the message (`Record.line_eq_line_iff`).
-/

namespace ContractHost

/-! ## Line feeds in records -/

namespace Record

/-- The line feeds in the message of a diagnostic; a transaction has none. -/
def lineFeeds (r : Record) : Nat := (r.message?.getD "").toList.count '\n'

/-- The line of a record has the line feeds of its message. -/
lemma count_line (r : Record) : r.line.toList.count '\n' = r.lineFeeds := by
  cases r with
  | transaction tag payload =>
    have htag := List.count_eq_zero.2 (Text.lineFeed_not_mem_quoted tag)
    have hpayload := List.count_eq_zero.2 (Text.lineFeed_not_mem_quoted (Utf8.lossy payload))
    have hopening : "tag = ".toList.count '\n' = 0 := by decide
    have hmiddle : "; payload = ".toList.count '\n' = 0 := by decide
    simp only [line, String.toList_append, List.count_append, htag, hpayload, hopening, hmiddle]
    rfl
  | diagnostic message =>
    have hopening : "error: ".toList.count '\n' = 0 := by decide
    simp only [line, String.toList_append, List.count_append, hopening, Nat.zero_add]
    rfl

/-- There is a line feed in the line of a record just if there is one in the message. -/
lemma lineFeed_mem_line_iff (r : Record) :
    '\n' ∈ r.line.toList ↔ ∃ message, r = .diagnostic message ∧ '\n' ∈ message.toList := by
  rw [← List.count_pos_iff, count_line, lineFeeds]
  cases r with
  | transaction tag payload => simp [message?]
  | diagnostic message => simp [message?, List.count_pos_iff]

end Record

namespace CommandLine

/-! ## What is printed -/

/-- What is printed for lines: each of them with a line feed behind it. -/
def printed (lines : List String) : List Char := lines.flatMap fun l => l.toList ++ ['\n']

/-- The lines of what was printed: what stands in front of each line feed. -/
def linesOf (text : List Char) : List (List Char) := (text.splitOn '\n').dropLast

/-- Behind a line that is printed come the others. -/
lemma printed_cons (l : String) (lines : List String) :
    printed (l :: lines) = l.toList ++ '\n' :: printed lines := by
  simp [printed]

/-- What is printed for a line makes as many lines as its line feeds split it into. -/
lemma linesOf_printed (lines : List String) :
    linesOf (printed lines) = lines.flatMap fun l => l.toList.splitOn '\n' := by
  induction lines with
  | nil => rfl
  | cons l lines ih =>
    rw [linesOf, printed_cons, List.splitOn_append_cons_self,
      List.dropLast_append_of_ne_nil (List.splitOn_ne_nil '\n' _), ← linesOf, ih, List.flatMap_cons]

/-- A text is split into one part more than it has separators. -/
lemma length_splitOn (s : List Char) (c : Char) : (s.splitOn c).length = s.count c + 1 := by
  induction s with
  | nil => rfl
  | cons x s ih =>
    rw [List.splitOn_cons_eq_if_modifyHead, List.count_cons]
    split
    · rw [List.length_cons, ih]
    · rw [List.length_modifyHead, ih, Nat.add_zero]

/-- The lines that are printed for records are as many as the records and their line feeds. -/
lemma length_linesOf_records (records : List Record) :
    (linesOf (printed (records.map Record.line))).length =
      records.length + (records.map Record.lineFeeds).sum := by
  rw [linesOf_printed]
  induction records with
  | nil => rfl
  | cons r records ih =>
    simp only [List.map_cons, List.flatMap_cons, List.length_append, length_splitOn,
      Record.count_line, List.length_cons, List.sum_cons, ih]
    omega

/-- Records are printed line by line just if none of them has a line feed. -/
lemma linesOf_records_iff (records : List Record) :
    linesOf (printed (records.map Record.line)) = records.map (fun r => r.line.toList) ↔
      ∀ r ∈ records, '\n' ∉ r.line.toList := by
  constructor
  · intro h r hr hfeed
    have hlength := congrArg List.length h
    rw [length_linesOf_records, List.length_map] at hlength
    have hfeeds : 0 < r.lineFeeds := r.count_line ▸ List.count_pos_iff.2 hfeed
    have hpos := List.sum_pos_iff_exists_pos_nat.2
      ⟨r.lineFeeds, List.mem_map_of_mem hr, hfeeds⟩
    omega
  · intro h
    rw [linesOf_printed, List.flatMap_map, List.map_eq_flatMap]
    exact List.flatMap_congr fun r hr => List.splitOn_eq_singleton (h r hr)

/-- How the line of a transaction begins. -/
def opensTransaction (line : List Char) : Bool := "tag = ".toList.isPrefixOf line

/-- The line of a record begins like that of a transaction just if the record is one. -/
lemma opensTransaction_line (r : Record) : opensTransaction r.line.toList = r.isTransaction := by
  cases r with
  | transaction tag payload =>
    simp only [opensTransaction, Record.line, String.toList_append, List.append_assoc]
    exact List.isPrefixOf_iff_prefix.2 (List.prefix_append _ _)
  | diagnostic message =>
    simp only [opensTransaction, Record.line, String.toList_append]
    rfl

/-- A diagnostic whose message goes on with the lines of other records is printed like a diagnostic
with the other records behind it. -/
lemma printed_forged (message : String) (forged : List Record) :
    ∃ text, printed [(Record.diagnostic text).line] =
      printed ((Record.diagnostic message :: forged).map Record.line) := by
  have htail : ∀ lines : List String,
      (lines.flatMap fun l => '\n' :: l.toList) ++ ['\n'] = '\n' :: printed lines := by
    intro lines
    induction lines with
    | nil => rfl
    | cons l lines ih => simp [List.flatMap_cons, printed_cons, ih]
  refine ⟨message ++ String.ofList ((forged.map Record.line).flatMap fun l => '\n' :: l.toList), ?_⟩
  have hline := htail (forged.map Record.line)
  simp only [Record.line, List.map_cons, printed_cons, String.toList_append, String.toList_ofList,
    List.append_assoc]
  rw [show printed [] = [] from rfl, hline]

end CommandLine

/-! ## Records with the same line -/

namespace Record

/-- The line of a transaction tells its tag and the text of its payload. -/
lemma line_transaction_inj {tag tag' : String} {payload payload' : ByteArray} :
    (transaction tag payload).line = (transaction tag' payload').line ↔
      tag = tag' ∧ Utf8.lossy payload = Utf8.lossy payload' := by
  simp only [line, ← String.toList_inj, String.toList_append, Text.quoted, String.toList_ofList,
    List.append_assoc, List.append_cancel_left_eq, Text.quotedChars_append_inj,
    Text.quotedChars_inj]

/-- Two records have the same line just if they are transactions with the same tag and payloads of
the same text, or diagnostics with the same message. -/
theorem line_eq_line_iff (r s : Record) :
    r.line = s.line ↔
      (∃ tag payload payload', r = transaction tag payload ∧ s = transaction tag payload' ∧
        Utf8.lossy payload = Utf8.lossy payload') ∨
      ∃ message, r = diagnostic message ∧ s = diagnostic message := by
  constructor
  · intro h
    have hkind : r.isTransaction = s.isTransaction := by
      rw [← CommandLine.opensTransaction_line, h, CommandLine.opensTransaction_line]
    cases r with
    | transaction tag payload =>
      cases s with
      | transaction tag' payload' =>
        obtain ⟨rfl, htext⟩ := line_transaction_inj.1 h
        exact Or.inl ⟨tag, payload, payload', rfl, rfl, htext⟩
      | diagnostic _ => cases hkind
    | diagnostic message =>
      cases s with
      | transaction _ _ => cases hkind
      | diagnostic message' =>
        obtain rfl : message = message' := String.append_right_inj _ |>.1 h
        exact Or.inr ⟨message, rfl, rfl⟩
  · rintro (⟨tag, payload, payload', rfl, rfl, htext⟩ | ⟨message, rfl, rfl⟩)
    · exact line_transaction_inj.2 ⟨rfl, htext⟩
    · rfl

/-- Payloads that are no UTF-8 can have the same text. -/
example : (transaction "a" ⟨#[0xFE]⟩).line = (transaction "a" ⟨#[0xFF]⟩).line := by
  decide +kernel

end Record

/-! ## What a guest can have printed -/

/-- A guest whose memory holds a text can emit the diagnostic with this message, if the log has room
for it. -/
lemma Bridge.emits_diagnostic {context context' : Context} {memory : Memory}
    {messageAt messageLength : Int32} {text : String}
    (hholds : memory.Holds messageAt.toInt messageLength.toInt text.toUTF8)
    (hroom : context.record errorName (.diagnostic text) = .ok context') :
    HostFunction.error.Emits context memory [messageAt, messageLength] [.diagnostic text] := by
  have hmade : diagnosticRecord memory messageAt messageLength = .ok (.diagnostic text) :=
    diagnosticRecord_eq_ok_iff.2 ⟨_, by rw [Utf8.lossy_toUTF8], hholds⟩
  have hserved : (HostFunction.error.run context memory [messageAt, messageLength]).result =
      .ok none := by
    change (emit errorName context memory (diagnosticRecord memory messageAt messageLength)).result
      = _
    simp only [emit, hmade, hroom]
  have htells := Call.Tells.diagnostic hholds
  rw [Utf8.lossy_toUTF8] at htells
  exact .told hserved htells

/-- A record has a line feed in its line just if it is a diagnostic with one in its message.  The
lines that a run prints are as many as the records that it shows and their line feeds; they are
those of the records one by one just if there are no line feeds, and then those that begin like the
line of a transaction are the lines of the transactions.  But for any records there is a diagnostic
that is printed as if they stood behind it, and a guest can emit it. -/
theorem CommandLine.Outcome.Shows.lines_correspond {outcome : Outcome} {entry : String}
    {records : List Record} {error : Option SandboxError}
    (h : outcome.Shows entry records error) :
    (∀ r : Record, '\n' ∈ r.line.toList ↔
        ∃ message, r = .diagnostic message ∧ '\n' ∈ message.toList) ∧
      (linesOf (printed outcome.lines.toList)).length =
        records.length + (records.map Record.lineFeeds).sum ∧
      (linesOf (printed outcome.lines.toList) = records.map (fun r => r.line.toList) ↔
        ∀ r ∈ records, '\n' ∉ r.line.toList) ∧
      ((∀ r ∈ records, '\n' ∉ r.line.toList) →
        (linesOf (printed outcome.lines.toList)).filter opensTransaction =
          (records.filter Record.isTransaction).map fun r => r.line.toList) ∧
      ∀ message (forged : List Record), ∃ text,
        printed [(Record.diagnostic text).line] =
            printed ((Record.diagnostic message :: forged).map Record.line) ∧
          ∀ context context' memory messageAt messageLength,
            Memory.Holds memory (Int32.toInt messageAt) (Int32.toInt messageLength) text.toUTF8 →
            Context.record context Bridge.errorName (.diagnostic text) = .ok context' →
            Bridge.HostFunction.error.Emits context memory [messageAt, messageLength]
              [.diagnostic text] := by
  rw [h.lines_eq]
  refine ⟨Record.lineFeed_mem_line_iff, length_linesOf_records records,
    linesOf_records_iff records, fun hfeeds => ?_, fun message forged => ?_⟩
  · rw [(linesOf_records_iff records).2 hfeeds, List.filter_map]
    simp only [Function.comp_def, opensTransaction_line]
  · obtain ⟨text, htext⟩ := printed_forged message forged
    exact ⟨text, htext, fun _ _ _ _ _ => Bridge.emits_diagnostic⟩

namespace CommandLine

/-- A transaction and a diagnostic on a line each. -/
def plainRecords : List Record := [.transaction "a\nb" "1".toUTF8, .diagnostic "x"]

/-- The outcome of a run that shows them. -/
def plainOutcome : Outcome := ⟨(plainRecords.map Record.line).toArray, true, none⟩

/-- The run prints the two lines, though there is a line feed in the tag. -/
theorem linesOf_plainOutcome :
    plainOutcome.Shows "contract_main" plainRecords none ∧
      linesOf (printed plainOutcome.lines.toList) = plainRecords.map fun r => r.line.toList := by
  have hshows : plainOutcome.Shows "contract_main" plainRecords none := ⟨rfl, rfl, rfl⟩
  obtain ⟨hfeed, -, hlines, -⟩ := hshows.lines_correspond
  refine ⟨hshows, hlines.2 fun r hr hmem => ?_⟩
  obtain ⟨message, rfl, hmessage⟩ := (hfeed r).1 hmem
  simp only [plainRecords, List.mem_cons, reduceCtorEq, Record.diagnostic.injEq, false_or,
    List.not_mem_nil, or_false] at hr
  subst hr
  exact absurd hmessage (by decide)

/-- A message with a line feed and the line of a transaction behind it. -/
def forgedMessage : String := "x\ntag = \"transfer\"; payload = \"1\""

/-- A call of `_error` emits the message as one diagnostic, and it is printed in two lines, the
second of which is that of a transaction that was not sent. -/
theorem printed_forgedMessage :
    Bridge.HostFunction.error.Emits (.new ByteArray.empty .standard) ⟨forgedMessage.toUTF8⟩ [0, 33]
        [.diagnostic forgedMessage] ∧
      '\n' ∈ (Record.diagnostic forgedMessage).line.toList ∧
      linesOf (printed [(Record.diagnostic forgedMessage).line]) =
        ["error: x".toList, (Record.transaction "transfer" "1".toUTF8).line.toList] := by
  have hread : (⟨forgedMessage.toUTF8⟩ : Memory).read 0 33 = .ok forgedMessage.toUTF8 := by
    decide +kernel
  refine ⟨Bridge.emits_diagnostic (Memory.read_eq_ok_iff.1 hread) rfl, by decide +kernel, ?_⟩
  rw [Record.line, Utf8.lossy_toUTF8]
  decide +kernel

end CommandLine

end ContractHost
