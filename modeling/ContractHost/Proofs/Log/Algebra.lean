import Mathlib.Data.List.Basic
import Mathlib.Logic.Function.Basic
import Mathlib.Tactic.Common
import ContractHost.Proofs.Log.Fitting

/-!
# Logs as sequences of records

A log keeps its count of bytes beside its records, and the count is part of what makes two logs
equal.  Wherever a log has been, it counts its own records (`Log.counted_afterMoves`), so that logs
are equal just if their records are, and adding one log to another is adding its records.

A log falls into its transactions and its diagnostics.  Both keep their order, and the kinds of the
records say how the two were woven together: with them the records can be put in order again
(`Log.interleave_parts`).  All of this together is `Log.afterMoves_laws`.
-/

namespace ContractHost.Log

variable {a b : Log}

/-! ## One log behind another -/

/-- The records of a log that is added come last. -/
@[simp] lemma toList_append (a b : Log) : (a.append b).toList = a.toList ++ b.toList :=
  Array.toList_append

/-- A log that is added is counted. -/
lemma Counted.append (ha : a.Counted) (hb : b.Counted) : (a.append b).Counted := by
  have hbytes : (a.append b).bytes = a.bytes + b.bytes := rfl
  rw [Counted, hbytes, toList_append, List.map_append, List.sum_append,
    ← show a.bytes = _ from ha, ← show b.bytes = _ from hb]

/-- Logs that count their records are equal just if their records are. -/
lemma Counted.eq_iff (ha : a.Counted) (hb : b.Counted) : a = b ↔ a.toList = b.toList := by
  constructor
  · intro hab
    rw [hab]
  · intro hrecords
    rw [← foldl_push_toList ha, ← foldl_push_toList hb, hrecords]

/-- It does not matter which logs are put together first. -/
lemma append_assoc (a b c : Log) : (a.append b).append c = a.append (b.append c) :=
  congrArg₂ Log.mk Array.append_assoc (Nat.add_assoc a.bytes b.bytes c.bytes)

/-- A log behind no records is the same log. -/
lemma empty_append (a : Log) : empty.append a = a :=
  congrArg₂ Log.mk Array.empty_append (Nat.zero_add a.bytes)

/-- A log with no records behind it is the same log. -/
lemma append_empty (a : Log) : a.append empty = a :=
  congrArg₂ Log.mk Array.append_empty (Nat.add_zero a.bytes)

/-! ## Transactions and diagnostics -/

/-- For each record in order, whether it is a transaction. -/
def kinds (log : Log) : List Bool := log.toList.map Record.isTransaction

/-- Puts records in an order: `true` stands for the next of the first list, `false` for the next of
the second. -/
def interleave : List Bool → List Record → List Record → List Record
  | true :: kinds, r :: rs, rs' => r :: interleave kinds rs rs'
  | false :: kinds, rs, r :: rs' => r :: interleave kinds rs rs'
  | _, _, _ => []

/-- A log falls into its transactions and its diagnostics. -/
structure Parted (log : Log) : Prop where
  /-- The transactions stand in the order of the log. -/
  transactions_sublist : log.transactions.Sublist log.toList
  /-- The diagnostics stand in the order of the log. -/
  diagnostics_sublist : log.diagnostics.Sublist log.toList
  /-- The transactions are transactions. -/
  of_mem_transactions : ∀ r ∈ log.transactions, r.isTransaction = true
  /-- The diagnostics are no transactions. -/
  of_mem_diagnostics : ∀ r ∈ log.diagnostics, r.isTransaction = false
  /-- No record is left out. -/
  length_add : log.transactions.length + log.diagnostics.length = log.length
  /-- The kinds of the records put both in order again. -/
  interleave_eq : interleave log.kinds log.transactions log.diagnostics = log.toList

/-- Records that were told apart by their kinds are put in order again by them. -/
lemma interleave_parts (rs : List Record) :
    interleave (rs.map Record.isTransaction) (rs.filter Record.isTransaction)
      (rs.filter (!·.isTransaction)) = rs := by
  induction rs with
  | nil => rfl
  | cons r rs ih =>
    by_cases hr : r.isTransaction = true
    · rw [List.map_cons, List.filter_cons_of_pos hr, List.filter_cons_of_neg (by simp [hr]), hr,
        interleave, ih]
    · have hfalse : r.isTransaction = false := Bool.eq_false_iff.2 hr
      rw [List.map_cons, List.filter_cons_of_neg hr, List.filter_cons_of_pos (by simp [hfalse]),
        hfalse, interleave, ih]

/-- Every log falls into its transactions and its diagnostics. -/
lemma parted (log : Log) : log.Parted where
  transactions_sublist := List.filter_sublist
  diagnostics_sublist := List.filter_sublist
  of_mem_transactions _ hr := (List.mem_filter.1 hr).2
  of_mem_diagnostics _ hr := by simpa using (List.mem_filter.1 hr).2
  length_add := by
    rw [← length_toList]
    exact (List.length_eq_length_filter_add Record.isTransaction).symm
  interleave_eq := interleave_parts log.toList

/-- The transactions of a log that is added come last. -/
lemma transactions_append (a b : Log) :
    (a.append b).transactions = a.transactions ++ b.transactions := by
  rw [transactions, toList_append, List.filter_append]
  rfl

/-- The diagnostics of a log that is added come last. -/
lemma diagnostics_append (a b : Log) :
    (a.append b).diagnostics = a.diagnostics ++ b.diagnostics := by
  rw [diagnostics, toList_append, List.filter_append]
  rfl

/-- Logs that count their records are equal just if they have the same transactions and the same
diagnostics, woven together in the same way. -/
lemma Counted.eq_iff_parts (ha : a.Counted) (hb : b.Counted) :
    a = b ↔ a.kinds = b.kinds ∧ a.transactions = b.transactions ∧
      a.diagnostics = b.diagnostics := by
  constructor
  · intro hab
    rw [hab]
    exact ⟨rfl, rfl, rfl⟩
  · rintro ⟨hkinds, htransactions, hdiagnostics⟩
    rw [ha.eq_iff hb, ← a.parted.interleave_eq, ← b.parted.interleave_eq, hkinds, htransactions,
      hdiagnostics]

/-! ## Logs that are moved about -/

/-- What is done with logs that lie in places of their own. -/
inductive Move (ι : Type) where
  | push (target : ι) (r : Record)
  | append (target source : ι)
  | appendWithin (target source : ι) (limits : LogLimits)
  | take (target source : ι)

variable {ι : Type} [DecidableEq ι]

/-- The logs after a move.  A log that is moved leaves no records in its place, and the log that it
comes in place of is gone. -/
def afterMove (logs : ι → Log) : Move ι → ι → Log
  | .push target r => Function.update logs target ((logs target).push r)
  | .append target source =>
    let others := Function.update logs source empty
    Function.update others target ((others target).append (logs source))
  | .appendWithin target source limits =>
    let others := Function.update logs source empty
    Function.update others target ((others target).appendWithin (logs source) limits).1
  | .take target source =>
    Function.update (Function.update logs source empty) target (logs source)

/-- The logs after several moves. -/
def afterMoves (logs : ι → Log) (moves : List (Move ι)) : ι → Log := moves.foldl afterMove logs

/-- Where all logs count their records, they do so with another one in some place. -/
lemma counted_update {logs : ι → Log} (h : ∀ i, (logs i).Counted) (ha : a.Counted) (target : ι) :
    ∀ i, (Function.update logs target a i).Counted := by
  intro i
  by_cases hi : i = target
  · rw [hi, Function.update_self]
    exact ha
  · rw [Function.update_of_ne hi]
    exact h i

/-- Records that are moved over are counted. -/
lemma Counted.appendWithin (ha : a.Counted) (b : Log) (limits : LogLimits) :
    (a.appendWithin b limits).1.Counted := by
  obtain ⟨k, -, hadd, -⟩ := addWhileFits_longest limits a b.toList
  rw [Log.appendWithin, hadd]
  exact counted_foldl_push ha _

/-- A move leaves logs that count their records. -/
lemma counted_afterMove {logs : ι → Log} (h : ∀ i, (logs i).Counted) (move : Move ι) :
    ∀ i, (afterMove logs move i).Counted := by
  have hothers : ∀ source i, (Function.update logs source empty i).Counted :=
    fun source => counted_update h counted_empty source
  rcases move with ⟨target, r⟩ | ⟨target, source⟩ | ⟨target, source, limits⟩ | ⟨target, source⟩
  · exact counted_update h ((h target).push r) target
  · exact counted_update (hothers source) ((hothers source target).append (h source)) target
  · exact counted_update (hothers source) ((hothers source target).appendWithin _ limits) target
  · exact counted_update (hothers source) (h source) target

/-- Wherever records and logs are moved, every log counts its records. -/
lemma counted_afterMoves {logs : ι → Log} (h : ∀ i, (logs i).Counted) (moves : List (Move ι)) :
    ∀ i, (afterMoves logs moves i).Counted := by
  induction moves generalizing logs with
  | nil => exact h
  | cons move moves ih => exact ih (counted_afterMove h move)

/-- A record that is pushed comes last in its place, and all else stays where it is. -/
lemma afterMove_push (logs : ι → Log) (i : ι) (r : Record) :
    (afterMove logs (.push i r) i).toList = (logs i).toList ++ [r] ∧
      ∀ l ≠ i, afterMove logs (.push i r) l = logs l := by
  refine ⟨?_, fun l hl => Function.update_of_ne hl _ _⟩
  rw [afterMove, Function.update_self, toList_push]

/-- A log that is taken has its records in the new place and none in the old one, and all else stays
where it is. -/
lemma afterMove_take (logs : ι → Log) (i j : ι) :
    (afterMove logs (.take i j) i).toList = (logs j).toList ∧
      (j ≠ i → (afterMove logs (.take i j) j).toList = []) ∧
      ∀ l ≠ i, l ≠ j → afterMove logs (.take i j) l = logs l := by
  refine ⟨?_, fun hj => ?_, fun l hi hj => ?_⟩
  · rw [afterMove, Function.update_self]
  · rw [afterMove, Function.update_of_ne hj, Function.update_self]
    rfl
  · rw [afterMove, Function.update_of_ne hi, Function.update_of_ne hj]

/-- After any moves among logs that were empty at first: every log counts the bytes of its records,
and two logs are equal just if their records are.  Putting logs behind one another is associative,
and a log without records makes no difference.  Every log falls into its transactions and its
diagnostics, both of which follow the logs that are put behind one another; and two logs are equal
just if they have the same of both, in the same order of kinds.  With one move more, a record that
is pushed comes last, and a log that is taken leaves no records in its place. -/
theorem afterMoves_laws (moves : List (Move ι)) (i j k : ι) :
    let logs : ι → Log := afterMoves (fun _ => empty) moves
    let a := logs i
    let b := logs j
    let c := logs k
    (a.bytes = (a.toList.map Record.size).sum ∧ (a = b ↔ a.toList = b.toList)) ∧
      ((a.append b).append c = a.append (b.append c) ∧ empty.append a = a ∧
        a.append empty = a ∧ (a.append b).toList = a.toList ++ b.toList) ∧
      a.Parted ∧
      (a.append b).transactions = a.transactions ++ b.transactions ∧
      (a.append b).diagnostics = a.diagnostics ++ b.diagnostics ∧
      (a = b ↔ a.kinds = b.kinds ∧ a.transactions = b.transactions ∧
        a.diagnostics = b.diagnostics) ∧
      (∀ r, (afterMove logs (.push i r) i).toList = a.toList ++ [r] ∧
        ∀ l ≠ i, afterMove logs (.push i r) l = logs l) ∧
      (afterMove logs (.take i j) i).toList = b.toList ∧
      (j ≠ i → (afterMove logs (.take i j) j).toList = []) ∧
      ∀ l ≠ i, l ≠ j → afterMove logs (.take i j) l = logs l := by
  intro logs a b c
  have hcounted : ∀ i, (logs i).Counted := counted_afterMoves (fun _ => counted_empty) moves
  refine ⟨⟨hcounted i, (hcounted i).eq_iff (hcounted j)⟩, ?_, a.parted, transactions_append a b,
    diagnostics_append a b, (hcounted i).eq_iff_parts (hcounted j), afterMove_push logs i,
    afterMove_take logs i j⟩
  exact ⟨append_assoc a b c, empty_append a, append_empty a, toList_append a b⟩

/-- Two records are pushed in one place and taken to the other.  Where they were a third is pushed,
and they are put behind it. -/
example :
    let logs : Bool → Log := afterMoves (fun _ => empty)
      [.push true (.diagnostic "ab"), .push true (.transaction "t" "12".toUTF8),
        .take false true, .push true (.diagnostic ""), .append true false]
    (logs true).toList =
        [.diagnostic "", .diagnostic "ab", .transaction "t" "12".toUTF8] ∧
      (logs true).bytes = 5 ∧ logs false = empty := by
  decide +kernel

end ContractHost.Log
