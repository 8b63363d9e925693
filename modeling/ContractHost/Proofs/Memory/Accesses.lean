import Mathlib.Tactic.Common
import ContractHost.Proofs.Memory.Ranges

/-!
# What a memory holds after many accesses

The host reads from a memory and writes to it, at any offsets and in any order, and some of these
accesses are refused.  The capacity is always the one that the memory had at first, so whether an
access is refused depends on its own numbers and on that capacity alone; and each byte is the one
that the last write put there that succeeded and covered it, or has never changed
(`Memory.afterAll_accesses`).
-/

namespace ContractHost.Memory

/-- What the host asks of a memory: to copy bytes out of it, or to put bytes into it. -/
inductive Access where
  | read (offset length : Int32)
  | write (offset : Int32) (data : ByteArray)
  deriving DecidableEq

/-- Bytes that were put into a memory, and where. -/
structure Write where
  offset : Int32
  data : ByteArray
  deriving DecidableEq

/-- A write covers the positions of its range. -/
def Write.Covers (w : Write) (i : Nat) : Prop :=
  w.offset.toInt ≤ i ∧ i < w.offset.toInt + w.data.size

instance (w : Write) (i : Nat) : Decidable (w.Covers i) := inferInstanceAs (Decidable (_ ∧ _))

/-- The byte that a write puts at a position. -/
def Write.byte? (w : Write) (i : Nat) : Option UInt8 := w.data[i - w.offset.toInt.toNat]?

/-- The memory after an access; one that is refused changes nothing. -/
def after (m : Memory) : Access → Memory
  | .read _ _ => m
  | .write offset data =>
    match m.write offset data with
    | .ok m' => m'
    | .error _ => m

/-- The memory after several accesses. -/
def afterAll (m : Memory) (accesses : List Access) : Memory := accesses.foldl after m

/-- The writes that succeed among the accesses, in order; each is judged by the memory that it
finds. -/
def written : Memory → List Access → List Write
  | _, [] => []
  | m, .read _ _ :: accesses => m.written accesses
  | m, .write offset data :: accesses =>
    match m.write offset data with
    | .ok m' => ⟨offset, data⟩ :: m'.written accesses
    | .error _ => m.written accesses

/-- The byte that the last of the writes that cover a position puts there, or the byte of the memory
if none covers it. -/
def lastPut (m : Memory) (writes : List Write) (i : Nat) : Option UInt8 :=
  match (writes.filter fun w => w.Covers i).getLast? with
  | some w => w.byte? i
  | none => m.bytes[i]?

variable {m m' : Memory} {offset : Int32} {data : ByteArray}

/-! ## One access -/

/-- After a write the positions that it covers have its bytes, and all others what they had. -/
lemma getElem?_of_write_eq_ok (h : m.write offset data = .ok m') (i : Nat) :
    m'.bytes[i]? = if (⟨offset, data⟩ : Write).Covers i then (⟨offset, data⟩ : Write).byte? i
      else m.bytes[i]? := by
  obtain ⟨⟨hoffset, _, hend⟩, rfl⟩ := write_eq_ok_iff.1 h
  have hcovers : offset.toInt.toNat ≤ i ∧ i < offset.toInt.toNat + data.size ↔
      (⟨offset, data⟩ : Write).Covers i := by
    simp only [Write.Covers]
    omega
  rw [getElem?_splice (by omega), if_congr hcovers rfl rfl]
  rfl

/-- Putting bytes into the memory first is the same as having one write more before all others. -/
lemma lastPut_of_write (h : m.write offset data = .ok m') (writes : List Write) (i : Nat) :
    m'.lastPut writes i = m.lastPut (⟨offset, data⟩ :: writes) i := by
  unfold lastPut
  by_cases hcovers : (⟨offset, data⟩ : Write).Covers i
  · rw [List.filter_cons_of_pos (by simpa using hcovers), List.getLast?_cons]
    cases (writes.filter fun w => w.Covers i).getLast? with
    | some w => rfl
    | none => exact (getElem?_of_write_eq_ok h i).trans (if_pos hcovers)
  · rw [List.filter_cons_of_neg (by simpa using hcovers), getElem?_of_write_eq_ok h,
      if_neg hcovers]

/-- No access changes the capacity. -/
lemma capacity_after (m : Memory) (access : Access) : (m.after access).capacity = m.capacity := by
  cases access with
  | read offset length => rfl
  | write offset data =>
    rw [after]
    split
    next hwrite => exact capacity_write hwrite
    next => rfl

/-! ## Many accesses -/

/-- No accesses change the capacity. -/
lemma capacity_afterAll (m : Memory) (accesses : List Access) :
    (m.afterAll accesses).capacity = m.capacity := by
  induction accesses generalizing m with
  | nil => rfl
  | cons access accesses ih => exact (ih (m.after access)).trans (m.capacity_after access)

/-- After any accesses each byte is the one that was put there last. -/
lemma getElem?_afterAll (m : Memory) (accesses : List Access) (i : Nat) :
    (m.afterAll accesses).bytes[i]? = m.lastPut (m.written accesses) i := by
  induction accesses generalizing m with
  | nil => rfl
  | cons access accesses ih =>
    have hrest : (m.afterAll (access :: accesses)).bytes[i]? =
        (m.after access).lastPut ((m.after access).written accesses) i := ih (m.after access)
    rw [hrest]
    cases access with
    | read offset length => rfl
    | write offset data =>
      rw [written, after]
      split
      next m' hwrite => exact lastPut_of_write hwrite _ i
      next => rfl

/-- Whatever was read and written before, and whichever accesses were refused: the capacity is the
same, and each byte is the one that the last write put there that succeeded and covered it, or the
one that was there at first.  A write succeeds just if its range lies inside, a read just if its
length is not negative either, and the read returns those bytes and leaves all as it was; an access
that is refused is answered with its own offset and length and the capacity. -/
theorem afterAll_accesses (m : Memory) (accesses : List Access) :
    let m' := m.afterAll accesses
    let byteAt := m.lastPut (m.written accesses)
    m'.capacity = m.capacity ∧ (∀ i, m'.bytes[i]? = byteAt i) ∧
      (∀ (offset : Int32) (data : ByteArray),
        ((∃ m'', m'.write offset data = .ok m'') ↔
          0 ≤ offset.toInt ∧ offset.toInt + data.size ≤ m.capacity) ∧
        ∀ e, m'.write offset data = .error e → e = ⟨offset.toInt, data.size, m.capacity⟩) ∧
      ∀ offset length : Int32,
        ((∃ data, m'.read offset length = .ok data) ↔
          0 ≤ offset.toInt ∧ 0 ≤ length.toInt ∧ offset.toInt + length.toInt ≤ m.capacity) ∧
        (∀ data, m'.read offset length = .ok data → data.size = length.toInt ∧
          ∀ k < data.size, data[k]? = byteAt (offset.toInt.toNat + k)) ∧
        (∀ e, m'.read offset length = .error e →
          e = ⟨offset.toInt, length.toInt, m.capacity⟩) ∧
        m.afterAll (accesses ++ [.read offset length]) = m' := by
  intro m' byteAt
  have hcapacity : m'.capacity = m.capacity := m.capacity_afterAll accesses
  have hbytes : ∀ i, m'.bytes[i]? = byteAt i := m.getElem?_afterAll accesses
  refine ⟨hcapacity, hbytes, fun offset data => ⟨?_, fun e h => ?_⟩,
    fun offset length => ⟨?_, fun data h => ?_, fun e h => ?_, ?_⟩⟩
  · rw [← hcapacity]
    exact exists_write_iff
  · rw [← hcapacity]
    exact eq_of_write_eq_error h
  · rw [← hcapacity]
    exact exists_read_iff
  · obtain ⟨⟨_, hlength, _⟩, hsize, hdata⟩ := read_eq_ok_iff.1 h
    refine ⟨by omega, fun k hk => ?_⟩
    rw [hdata k hk, hbytes]
  · rw [← hcapacity]
    exact eq_of_read_eq_error h
  · exact List.foldl_append

/-- Four bytes are written to at both ends, across the middle and beyond the end; the write that
passes the end is refused, and the byte where two others overlap is that of the later one. -/
theorem afterAll_accesses_overlap :
    let accesses : List Access := [.write 0 "abc".toUTF8, .read 1 2, .write 2 "xy".toUTF8,
      .write 3 "no".toUTF8, .write (-1) "no".toUTF8]
    let m : Memory := ⟨"....".toUTF8⟩
    m.written accesses = [⟨0, "abc".toUTF8⟩, ⟨2, "xy".toUTF8⟩] ∧
      (m.afterAll accesses).bytes[1]? = some 98 ∧ (m.afterAll accesses).bytes[2]? = some 120 ∧
      (∃ data, (m.afterAll accesses).read 4 0 = .ok data) ∧
      (m.afterAll accesses).read 4 (-1) = .error ⟨4, -1, 4⟩ := by
  intro accesses m
  have hwritten : m.written accesses = [⟨0, "abc".toUTF8⟩, ⟨2, "xy".toUTF8⟩] := by
    decide +kernel
  obtain ⟨_, hbytes, _, hread⟩ := afterAll_accesses m accesses
  refine ⟨hwritten, ?_, ?_, (hread 4 0).1.2 (by decide +kernel), ?_⟩
  · rw [hbytes, hwritten]
    decide +kernel
  · rw [hbytes, hwritten]
    decide +kernel
  · cases h : (m.afterAll accesses).read 4 (-1) with
    | ok data =>
      exact absurd ((hread 4 (-1)).1.1 ⟨data, h⟩) (by decide +kernel)
    | error e => exact congrArg _ ((hread 4 (-1)).2.2.1 e h)

end ContractHost.Memory
