import Mathlib.Tactic.Common
import ContractHost.Proofs.Log.Counting

/-!
# Records that fit

A log has room for records if they can all be added within the limits (`Log.HasRoom`).  Whether one
record fits is the same question about that record alone, and a context that records comes to the
same answer (`Log.fits_iff_hasRoom`, `Context.exists_record_iff`).

When records are moved over while they fit, exactly those beginnings are kept for which there is
room (`Log.addWhileFits_longest`, `Log.appendWithin_longest`).  A log that a context keeps has been
within the limits all the time, so that it is kept whole when it is moved over under the same or
larger limits (`Context.fits_along`).
-/

namespace ContractHost

/-! ## Limits -/

/-- Limits are at most others if both of them are. -/
instance : LE LogLimits where
  le limits limits' :=
    limits.maxRecords ≤ limits'.maxRecords ∧ limits.maxBytes ≤ limits'.maxBytes

namespace LogLimits

variable {limits limits' : LogLimits}

/-- So many bytes are within the limit; a limit of the largest word is no limit. -/
def AdmitsBytes (limits : LogLimits) (bytes : Nat) : Prop :=
  limits.maxBytes.toNat < maxWord → bytes ≤ limits.maxBytes.toNat

/-- Bytes that a word can count are within the limit if there are no more of them, and so are any
bytes where the limit is not the largest word. -/
lemma admitsBytes_iff {bytes : Nat} (h : limits.maxBytes.toNat = maxWord → bytes ≤ maxWord) :
    limits.AdmitsBytes bytes ↔ bytes ≤ limits.maxBytes.toNat := by
  have hword : limits.maxBytes.toNat ≤ maxWord := Nat.le_sub_one_of_lt limits.maxBytes.toNat_lt
  unfold AdmitsBytes
  omega

/-- With bytes within the limit fewer are. -/
lemma AdmitsBytes.of_le {bytes bytes' : Nat} (h : limits.AdmitsBytes bytes)
    (hle : bytes' ≤ bytes) : limits.AdmitsBytes bytes' :=
  fun hword => Nat.le_trans hle (h hword)

/-- Bytes within a limit are within all larger ones. -/
lemma AdmitsBytes.raised {bytes : Nat} (h : limits.AdmitsBytes bytes) (hle : limits ≤ limits') :
    limits'.AdmitsBytes bytes := by
  have hbytes := UInt64.le_iff_toNat_le.1 hle.2
  unfold AdmitsBytes at h ⊢
  omega

/-- A sum is within the limit after saturation just if it is so in plain numbers. -/
lemma saturatingAdd_le_iff {held incoming : Nat} :
    saturatingAdd held incoming ≤ limits.maxBytes.toNat ↔
      limits.AdmitsBytes (held + incoming) := by
  have hlast : maxWord = UInt64.size - 1 := rfl
  have hword := limits.maxBytes.toNat_lt
  unfold saturatingAdd AdmitsBytes
  omega

end LogLimits

/-! ## Room for records -/

namespace Log

variable {limits limits' : LogLimits} {log a b : Log} {r : Record} {rs rs' : List Record}

/-- With all the records behind its own the log is within the limits. -/
structure HasRoom (log : Log) (limits : LogLimits) (rs : List Record) : Prop where
  /-- There are no more records than allowed then. -/
  length_le : log.length + rs.length ≤ limits.maxRecords.toNat
  /-- There are no more bytes than allowed then. -/
  admitsBytes : limits.AdmitsBytes (log.bytes + (rs.map Record.size).sum)

/-- There is room for one record just if it passes neither limit. -/
lemma hasRoom_singleton : log.HasRoom limits [r] ↔
    log.length < limits.maxRecords.toNat ∧ limits.AdmitsBytes (log.bytes + r.size) :=
  ⟨fun ⟨hrecords, hbytes⟩ => ⟨hrecords, hbytes⟩, fun ⟨hrecords, hbytes⟩ => ⟨hrecords, hbytes⟩⟩

/-- A record fits just if there is room for it. -/
lemma fits_iff_hasRoom : log.fits limits r.size = true ↔ log.HasRoom limits [r] := by
  rw [fits, Bool.and_eq_true, decide_eq_true_iff, decide_eq_true_iff,
    LogLimits.saturatingAdd_le_iff, hasRoom_singleton]

/-- Where there is room for records, there is room for their beginning. -/
lemma HasRoom.of_isPrefix (h : log.HasRoom limits rs) (hfront : rs' <+: rs) :
    log.HasRoom limits rs' := by
  obtain ⟨rest, rfl⟩ := hfront
  obtain ⟨hlength, hbytes⟩ := h
  rw [List.length_append] at hlength
  rw [List.map_append, List.sum_append] at hbytes
  exact ⟨by omega, hbytes.of_le (by omega)⟩

/-- Where there is room for records, there is room for them under larger limits. -/
lemma HasRoom.raised (h : log.HasRoom limits rs) (hle : limits ≤ limits') :
    log.HasRoom limits' rs := by
  have hrecords := UInt64.le_iff_toNat_le.1 hle.1
  exact ⟨Nat.le_trans h.length_le hrecords, h.admitsBytes.raised hle⟩

/-- As far as a word can count, there is room for records just if neither limit is passed. -/
lemma hasRoom_iff (hword : log.bytes + (rs.map Record.size).sum < UInt64.size) :
    log.HasRoom limits rs ↔ log.length + rs.length ≤ limits.maxRecords.toNat ∧
      log.bytes + (rs.map Record.size).sum ≤ limits.maxBytes.toNat := by
  rw [← LogLimits.admitsBytes_iff fun _ => Nat.le_sub_one_of_lt hword]
  exact ⟨fun ⟨hrecords, hbytes⟩ => ⟨hrecords, hbytes⟩, fun ⟨hrecords, hbytes⟩ => ⟨hrecords, hbytes⟩⟩

/-- After a record there is room for others just if there was room for them all. -/
lemma hasRoom_push : (log.push r).HasRoom limits rs ↔ log.HasRoom limits (r :: rs) := by
  have hlength : (log.push r).length + rs.length = log.length + (r :: rs).length := by
    rw [length_push, List.length_cons]
    omega
  have hbytes : (log.push r).bytes + (rs.map Record.size).sum =
      log.bytes + ((r :: rs).map Record.size).sum := by
    rw [List.map_cons, List.sum_cons, ← Nat.add_assoc]
    rfl
  constructor
  · rintro ⟨hrecords, hroom⟩
    rw [hlength] at hrecords
    rw [hbytes] at hroom
    exact ⟨hrecords, hroom⟩
  · rintro ⟨hrecords, hroom⟩
    rw [← hlength] at hrecords
    rw [← hbytes] at hroom
    exact ⟨hrecords, hroom⟩

/-- After records there is room for others just if there was room for them all. -/
lemma hasRoom_foldl_push : (rs.foldl push log).HasRoom limits rs' ↔
    log.HasRoom limits (rs ++ rs') := by
  induction rs generalizing log with
  | nil => exact Iff.rfl
  | cons r rs ih => rw [List.foldl_cons, ih, hasRoom_push, List.cons_append]

/-! ## Moving records over -/

/-- Records that are added one by one come last. -/
lemma toList_foldl_push (log : Log) (rs : List Record) :
    (rs.foldl push log).toList = log.toList ++ rs := by
  induction rs generalizing log with
  | nil => exact (List.append_nil _).symm
  | cons r rs ih => rw [List.foldl_cons, ih, toList_push, List.append_assoc, List.singleton_append]

/-- Records that are added one by one are as many more. -/
lemma length_foldl_push (log : Log) (rs : List Record) :
    (rs.foldl push log).length = log.length + rs.length := by
  rw [← length_toList, toList_foldl_push, List.length_append, length_toList]

/-- Records that are added one by one are all counted. -/
lemma bytes_foldl_push (log : Log) (rs : List Record) :
    (rs.foldl push log).bytes = log.bytes + (rs.map Record.size).sum := by
  induction rs generalizing log with
  | nil => rfl
  | cons r rs ih =>
    have hbytes : (log.push r).bytes = log.bytes + r.size := rfl
    rw [List.foldl_cons, ih, hbytes, List.map_cons, List.sum_cons, Nat.add_assoc]

/-- Records that are added one by one are counted with those before. -/
lemma counted_foldl_push (h : log.Counted) (rs : List Record) : (rs.foldl push log).Counted := by
  rw [Counted, bytes_foldl_push, toList_foldl_push, List.map_append, List.sum_append,
    ← show log.bytes = _ from h]

/-- A log is that of its records added one by one. -/
lemma foldl_push_toList (h : log.Counted) : log.toList.foldl push empty = log := by
  have hrecords : (log.toList.foldl push empty).toList = log.toList := by
    rw [toList_foldl_push]
    rfl
  have hbytes : (log.toList.foldl push empty).bytes = log.bytes := by
    rw [bytes_foldl_push, show log.bytes = _ from h]
    exact Nat.zero_add _
  exact congrArg₂ Log.mk (Array.ext' hrecords) hbytes

/-- Records are added while they fit: of the beginnings those are kept for which there is room. -/
lemma addWhileFits_longest (limits : LogLimits) (log : Log) (rs : List Record) :
    ∃ k ≤ rs.length,
      addWhileFits limits log rs = ((rs.take k).foldl push log, rs.length - k) ∧
      ∀ j < rs.length, (j < k ↔ log.HasRoom limits (rs.take (j + 1))) := by
  induction rs generalizing log with
  | nil => exact ⟨0, Nat.le_refl _, rfl, fun j hj => absurd hj (Nat.not_lt_zero j)⟩
  | cons r rs ih =>
    by_cases hfits : log.fits limits r.size = true
    · obtain ⟨k, hk, hadd, hroom⟩ := ih (log.push r)
      refine ⟨k + 1, Nat.succ_le_succ hk, ?_, ?_⟩
      · rw [addWhileFits, if_pos hfits, hadd, List.take_succ_cons, List.foldl_cons,
          List.length_cons, Nat.add_sub_add_right]
      · rintro (_ | j) hj
        · rw [List.take_succ_cons, List.take_zero, ← fits_iff_hasRoom]
          exact iff_of_true (Nat.succ_pos k) hfits
        · rw [List.take_succ_cons, ← hasRoom_push, ← hroom j (Nat.lt_of_succ_lt_succ hj)]
          exact Nat.add_lt_add_iff_right
    · refine ⟨0, Nat.zero_le _, ?_, ?_⟩
      · rw [addWhileFits, if_neg hfits]
        rfl
      · -- What begins with a record that does not fit has no room.
        intro j _
        refine iff_of_false (Nat.not_lt_zero j) fun hroom => hfits ?_
        rw [List.take_succ_cons] at hroom
        exact fits_iff_hasRoom.2 (hroom.of_isPrefix ⟨rs.take j, rfl⟩)

/-- Records for which there is room are all added. -/
lemma addWhileFits_of_hasRoom (h : log.HasRoom limits rs) :
    addWhileFits limits log rs = (rs.foldl push log, 0) := by
  obtain ⟨k, hk, hadd, hroom⟩ := addWhileFits_longest limits log rs
  have hall : k = rs.length := by
    by_contra hne
    have hlt : k < rs.length := Nat.lt_of_le_of_ne hk hne
    exact Nat.lt_irrefl k ((hroom k hlt).2 (h.of_isPrefix (List.take_prefix _ _)))
  rw [hadd, hall, List.take_length, Nat.sub_self]

/-- The log with the first `k` records of another behind its own. -/
def withFirst (a b : Log) (k : Nat) : Log := (b.toList.take k).foldl push a

/-- With one record more, the next is the last. -/
lemma take_add_one_eq {j : Nat} (hr : b.toList[j]? = some r) :
    b.toList.take (j + 1) = b.toList.take j ++ [r] := by
  rw [List.take_add_one, hr]
  rfl

/-- A record fits behind those before it just if there is room for all of them. -/
lemma fits_withFirst {j : Nat} (hr : b.toList[j]? = some r) :
    (a.withFirst b j).fits limits r.size = true ↔ a.HasRoom limits (b.toList.take (j + 1)) := by
  rw [fits_iff_hasRoom, withFirst, hasRoom_foldl_push, take_add_one_eq hr]

/-- The first records of a log have no more bytes than all of them. -/
lemma sum_take_le (b : Log) (k : Nat) :
    ((b.toList.take k).map Record.size).sum ≤ (b.toList.map Record.size).sum := by
  have hall : (b.toList.map Record.size).sum = ((b.toList.take k).map Record.size).sum +
      ((b.toList.drop k).map Record.size).sum := by
    rw [← List.sum_append, ← List.map_append, List.take_append_drop]
  omega

/-- When the records of `b` are moved behind those of `a` within limits, the first `k` are kept, in
order, and the others are dropped.  A record is one of the first `k` just if it fits behind all that
stand before it; in particular each of them fitted when it was added, and the next, if there is
one, does not fit.  A log that is within the limits stays within them, to a log that is full or
beyond them nothing is added, and the bytes are counted as before. -/
theorem appendWithin_longest (a b : Log) (limits : LogLimits)
    (htotal : a.bytes + (b.toList.map Record.size).sum < UInt64.size) :
    let kept := (a.appendWithin b limits).1
    let dropped := (a.appendWithin b limits).2
    ∃ k, k + dropped = b.length ∧ kept.toList = a.toList ++ b.toList.take k ∧
      (∀ j r, b.toList[j]? = some r →
        (j < k ↔ (a.withFirst b j).fits limits r.size = true) ∧
        ((a.withFirst b j).fits limits r.size = true ↔
          a.length + j < limits.maxRecords.toNat ∧
          a.bytes + ((b.toList.take j).map Record.size).sum + r.size ≤ limits.maxBytes.toNat)) ∧
      (a.length ≤ limits.maxRecords.toNat → a.bytes ≤ limits.maxBytes.toNat →
        kept.length ≤ limits.maxRecords.toNat ∧ kept.bytes ≤ limits.maxBytes.toNat) ∧
      (limits.maxRecords.toNat ≤ a.length ∨ limits.maxBytes.toNat < a.bytes →
        kept = a ∧ dropped = b.length) ∧
      kept.bytes = a.bytes + ((b.toList.take k).map Record.size).sum ∧
      (a.Counted → kept.Counted) := by
  obtain ⟨k, hk, hadd, hroom⟩ := addWhileFits_longest limits a b.toList
  replace hadd : a.appendWithin b limits = (a.withFirst b k, b.toList.length - k) := hadd
  rw [hadd]
  intro kept dropped
  have hbytes : kept.bytes = a.bytes + ((b.toList.take k).map Record.size).sum :=
    bytes_foldl_push a _
  have hplain : ∀ j < b.toList.length, a.HasRoom limits (b.toList.take (j + 1)) ↔
      a.length + (j + 1) ≤ limits.maxRecords.toNat ∧
        a.bytes + ((b.toList.take (j + 1)).map Record.size).sum ≤ limits.maxBytes.toNat := by
    intro j hj
    have hle := b.sum_take_le (j + 1)
    rw [hasRoom_iff (by omega), List.length_take_of_le hj]
  refine ⟨k, ?_, toList_foldl_push a _, fun j r hr => ⟨?_, ?_⟩, fun hrecords hfit => ?_,
    fun hfull => ?_, hbytes, fun hcounted => counted_foldl_push hcounted _⟩
  · rw [← length_toList]
    exact Nat.add_sub_cancel' hk
  · obtain ⟨hj, -⟩ := List.getElem?_eq_some_iff.1 hr
    rw [fits_withFirst hr, hroom j hj]
  · obtain ⟨hj, -⟩ := List.getElem?_eq_some_iff.1 hr
    have hsum : ((b.toList.take (j + 1)).map Record.size).sum =
        ((b.toList.take j).map Record.size).sum + r.size := by
      rw [take_add_one_eq hr, List.map_append, List.sum_append, List.map_singleton,
        List.sum_singleton]
    rw [fits_withFirst hr, hplain j hj, hsum, Nat.add_assoc]
    exact Iff.rfl
  · have hlength : kept.length = a.length + k := by
      rw [← List.length_take_of_le hk]
      exact length_foldl_push a _
    rw [hlength, hbytes]
    obtain _ | k := k
    · exact ⟨hrecords, hfit⟩
    · exact (hplain k hk).1 ((hroom k hk).1 (Nat.lt_succ_self k))
  · have hnone : k = 0 := by
      by_contra hne
      have hpos : 0 < k := Nat.pos_of_ne_zero hne
      have hsome : 0 < b.toList.length := Nat.lt_of_lt_of_le hpos hk
      have hfits := (hplain 0 hsome).1 ((hroom 0 hsome).1 hpos)
      omega
    subst hnone
    exact ⟨rfl, length_toList b⟩

/-- A log with one record of three bytes. -/
def threeBytes : Log := ofList [.transaction "a" "12".toUTF8]

/-- A log with records of two bytes, four bytes and one byte. -/
def twoFourOne : Log :=
  ofList [.transaction "b" "1".toUTF8, .transaction "c" "123".toUTF8, .transaction "d" .empty]

/-- Within six bytes the record of two is kept; that of four does not fit, and the last is dropped
with it, though there is room for its one byte. -/
theorem appendWithin_longest_sixBytes :
    threeBytes.bytes + (twoFourOne.toList.map Record.size).sum < UInt64.size ∧
      (threeBytes.appendWithin twoFourOne ⟨10, 6⟩).2 = 2 ∧
      (threeBytes.appendWithin twoFourOne ⟨10, 6⟩).1.toList =
        [.transaction "a" "12".toUTF8, .transaction "b" "1".toUTF8] := by
  have htotal : threeBytes.bytes + (twoFourOne.toList.map Record.size).sum < UInt64.size := by
    decide
  obtain ⟨k, hdropped, hkept, hfits, -⟩ :=
    appendWithin_longest threeBytes twoFourOne ⟨10, 6⟩ htotal
  obtain ⟨htwo, -⟩ := hfits 0 (.transaction "b" "1".toUTF8) (by decide +kernel)
  obtain ⟨hfour, -⟩ := hfits 1 (.transaction "c" "123".toUTF8) (by decide +kernel)
  have hfirst : 0 < k := htwo.2 (by decide +kernel)
  have hsecond : ¬1 < k := fun hlt => absurd (hfour.1 hlt) (by decide +kernel)
  obtain rfl : k = 1 := by omega
  have hlength : twoFourOne.length = 3 := by decide
  refine ⟨htotal, by omega, ?_⟩
  rw [hkept]
  decide +kernel

end Log

namespace Context

variable {c : Context} {function : String} {r : Record}

/-! ## Room in a context -/

/-- A record is added just if there is room for it. -/
lemma exists_record_iff :
    (∃ c', c.record function r = .ok c') ↔ c.log.HasRoom c.limits [r] := by
  rw [← Log.fits_iff_hasRoom]
  constructor
  · rintro ⟨c', h⟩
    exact (record_eq_ok_iff.1 h).1
  · intro hfits
    exact ⟨_, record_eq_ok_iff.2 ⟨hfits, rfl⟩⟩

/-- What a host does with a context: it records for an imported function, or takes the log. -/
inductive Action where
  | record (function : String) (r : Record)
  | takeLog
  deriving DecidableEq

/-- The context after an action; a record that is refused changes nothing. -/
def after (c : Context) : Action → Context
  | .record function r =>
    match c.record function r with
    | .ok c' => c'
    | .error _ => c
  | .takeLog => c.clearLog

/-- The context after several actions. -/
def afterAll (c : Context) (actions : List Action) : Context := actions.foldl after c

/-- The logs that are taken along the actions, in order. -/
def taken : Context → List Action → List Log
  | _, [] => []
  | c, .takeLog :: actions => c.log :: c.clearLog.taken actions
  | c, .record function r :: actions => (c.after (.record function r)).taken actions

/-- An action keeps the limits, and leaves a context that a host comes to hold. -/
lemma after_keeps (hc : c.Reachable) (action : Action) :
    (c.after action).limits = c.limits ∧ (c.after action).Reachable := by
  obtain ⟨function, r⟩ | _ := action
  · rw [after]
    split
    next c' h =>
      obtain ⟨-, hc'⟩ := record_eq_ok_iff.1 h
      exact ⟨by rw [hc'], hc.record function r h⟩
    next => exact ⟨rfl, hc⟩
  · exact ⟨rfl, hc.clearLog⟩

/-- Actions keep the limits, and leave a context that a host comes to hold. -/
lemma afterAll_keeps (hc : c.Reachable) (actions : List Action) :
    (c.afterAll actions).limits = c.limits ∧ (c.afterAll actions).Reachable := by
  induction actions generalizing c with
  | nil => exact ⟨rfl, hc⟩
  | cons action actions ih =>
    obtain ⟨hlimits, hafter⟩ := after_keeps hc action
    obtain ⟨hlimits', hafter'⟩ := ih hafter
    exact ⟨hlimits'.trans hlimits, hafter'⟩

/-- A log that is taken is that of a context that the host came to hold. -/
lemma exists_of_mem_taken (hc : c.Reachable) {actions : List Action} {log : Log}
    (hlog : log ∈ c.taken actions) :
    ∃ c' : Context, c'.Reachable ∧ c'.limits = c.limits ∧ c'.log = log := by
  induction actions generalizing c with
  | nil => cases hlog
  | cons action actions ih =>
    obtain ⟨function, r⟩ | _ := action
    · obtain ⟨hlimits, hafter⟩ := after_keeps hc (.record function r)
      obtain ⟨c', hc', hlimits', hc'log⟩ := ih hafter hlog
      exact ⟨c', hc', hlimits'.trans hlimits, hc'log⟩
    · rcases List.mem_cons.1 hlog with rfl | hlater
      · exact ⟨c, hc, rfl, rfl⟩
      · obtain ⟨c', hc', hlimits', hc'log⟩ := ih hc.clearLog hlater
        exact ⟨c', hc', hlimits', hc'log⟩

/-- A log within the limits is kept whole under the same or larger limits. -/
lemma WithinLimits.appendWithin_eq (hc : c.WithinLimits) {limits : LogLimits}
    (hle : c.limits ≤ limits) : Log.empty.appendWithin c.log limits = (c.log, 0) := by
  have hroom : Log.empty.HasRoom c.limits c.log.toList := by
    have hrecords := hc.length_le
    have hbytes := hc.bytes_le
    rw [← Log.length_toList] at hrecords
    rw [show c.log.bytes = _ from hc.counted] at hbytes
    refine ⟨?_, fun hword => ?_⟩
    · have hempty : Log.empty.length = 0 := rfl
      omega
    · have hempty : Log.empty.bytes = 0 := rfl
      omega
  rw [Log.appendWithin, Log.addWhileFits_of_hasRoom (hroom.raised hle),
    Log.foldl_push_toList hc.counted]

/-- Whatever was recorded, refused and taken before: a record is added just if it fits the log as it
is then, which is to say that it passes neither limit; and every log that was taken on the way, and
the one that is open, is kept whole when it is moved into an empty log under the same or larger
limits. -/
theorem fits_along (hc : c.Reachable) (actions : List Action) :
    let c' := c.afterAll actions
    (∀ function r,
      ((∃ next, c'.record function r = .ok next) ↔ c'.log.fits c.limits r.size = true) ∧
      (c'.log.fits c.limits r.size = true ↔ c'.log.length < c.limits.maxRecords.toNat ∧
        c.limits.AdmitsBytes (c'.log.bytes + r.size))) ∧
    ∀ log ∈ c.taken actions ++ [c'.log], ∀ limits, c.limits ≤ limits →
      Log.empty.appendWithin log limits = (log, 0) := by
  intro c'
  obtain ⟨hlimits, hc'⟩ := afterAll_keeps hc actions
  refine ⟨fun function r => ⟨?_, ?_⟩, fun log hlog limits hle => ?_⟩
  · rw [exists_record_iff, Log.fits_iff_hasRoom, hlimits]
  · rw [Log.fits_iff_hasRoom, Log.hasRoom_singleton]
  · obtain ⟨c'', hc'', hlimits'', rfl⟩ :
        ∃ c'' : Context, c''.Reachable ∧ c''.limits = c.limits ∧ c''.log = log := by
      rcases List.mem_append.1 hlog with htaken | hopen
      · exact exists_of_mem_taken hc htaken
      · exact ⟨c', hc', hlimits, (List.mem_singleton.1 hopen).symm⟩
    rw [← hlimits''] at hle
    exact hc''.withinLimits.appendWithin_eq hle

/-- A context with room for two records and three bytes, and nothing recorded. -/
def small : Context := .new "{}".toUTF8 ⟨2, 3⟩

/-- Two messages are recorded, the second of which is too long; then the log is taken, and a message
without bytes follows one that takes all of them. -/
def smallActions : List Action :=
  [.record "_error" (.diagnostic "ab"), .record "_error" (.diagnostic "cd"), .takeLog,
    .record "_error" (.diagnostic "abc"), .record "_error" (.diagnostic "")]

/-- Afterwards nothing more fits, and the log that was taken is kept whole. -/
theorem fits_along_small :
    small.Reachable ∧ (∀ next, (small.afterAll smallActions).record "_error" (.diagnostic "") ≠
        .ok next) ∧
      small.taken smallActions = [.ofList [.diagnostic "ab"]] ∧ small.limits ≤ small.limits ∧
      Log.empty.appendWithin (.ofList [.diagnostic "ab"]) small.limits =
        (.ofList [.diagnostic "ab"], 0) := by
  have hsmall : small.Reachable := .new _ _
  have htaken : small.taken smallActions = [.ofList [.diagnostic "ab"]] := by decide +kernel
  have hle : small.limits ≤ small.limits := ⟨UInt64.le_refl _, UInt64.le_refl _⟩
  obtain ⟨hfits, hwhole⟩ := fits_along hsmall smallActions
  refine ⟨hsmall, fun next hnext => ?_, htaken, hle, ?_⟩
  · have hroom := (hfits "_error" (.diagnostic "")).1.1 ⟨next, hnext⟩
    exact absurd hroom (by decide +kernel)
  · refine hwhole _ ?_ _ hle
    rw [htaken]
    exact List.mem_cons_self

end Context

end ContractHost
