import Mathlib.Tactic.Common
import ContractHost.Memory

/-!
# Ranges of a memory

What it means that a range of a memory holds given bytes, byte for byte and without a word about
copies.  Reading succeeds with exactly the bytes that the range holds (`Memory.read_eq_ok_iff`);
writing makes the range hold the bytes written and leaves every byte outside it as it was
(`Memory.holds_of_write`, `Memory.getElem?_of_write`).
-/

namespace ContractHost.Memory

variable {m m' : Memory}

/-- The range of `length` bytes from `offset` on lies inside the memory, and its bytes are those
given. -/
structure Holds (m : Memory) (offset length : Int) (data : ByteArray) : Prop where
  /-- The range lies inside the memory. -/
  inBounds : m.InBounds offset length
  /-- There are as many bytes as the range has. -/
  size_eq : data.size = length.toNat
  /-- Each byte stands in its place. -/
  getElem?_eq : ∀ k < data.size, data[k]? = m.bytes[offset.toNat + k]?

/-- A byte of an array is one of its data. -/
lemma getElem?_data (b : ByteArray) (i : Nat) : b.data[i]? = b[i]? := rfl

/-- What was copied out of a range stands there. -/
lemma getElem?_extract (b : ByteArray) {start stop k : Nat} (h : start + k < stop)
    (hstop : stop ≤ b.size) : (b.extract start stop)[k]? = b[start + k]? := by
  have hsize : b.data.size = b.size := rfl
  rw [← getElem?_data, ByteArray.data_extract, Array.getElem?_extract, if_pos (by omega),
    getElem?_data]

/-- A range holds the bytes that can be copied out of it, and no others. -/
lemma holds_iff_eq_extract {offset length : Int} (h : m.InBounds offset length)
    (data : ByteArray) : m.Holds offset length data ↔
      data = m.bytes.extract offset.toNat (offset.toNat + length.toNat) := by
  obtain ⟨hoffset, hlength, hend⟩ := h
  have hstop : offset.toNat + length.toNat ≤ m.bytes.size := by
    have hcapacity : m.capacity = m.bytes.size := rfl
    omega
  have hsize : (m.bytes.extract offset.toNat (offset.toNat + length.toNat)).size =
      length.toNat := by
    rw [ByteArray.size_extract]
    omega
  constructor
  · intro hholds
    refine ByteArray.ext (Array.ext_getElem? fun k => ?_)
    by_cases hk : k < data.size
    · have hlt := hholds.size_eq
      rw [getElem?_data, getElem?_data, hholds.getElem?_eq k hk,
        getElem?_extract _ (by omega) hstop]
    · have hsize' := hholds.size_eq
      have hdata : data.data.size = data.size := rfl
      have hcopy : (m.bytes.extract offset.toNat (offset.toNat + length.toNat)).data.size =
          length.toNat := hsize
      rw [Array.getElem?_eq_none (by omega), Array.getElem?_eq_none (by omega)]
  · rintro rfl
    refine ⟨⟨hoffset, hlength, hend⟩, hsize, fun k hk => ?_⟩
    rw [hsize] at hk
    exact getElem?_extract _ (by omega) hstop

/-- Reading gives the bytes that the range holds; there are such bytes just if the range lies
inside. -/
lemma read_eq_ok_iff {offset length : Int32} {data : ByteArray} :
    m.read offset length = .ok data ↔ m.Holds offset.toInt length.toInt data := by
  unfold read
  by_cases h : m.InBounds offset.toInt length.toInt
  · rw [if_pos h, holds_iff_eq_extract h, Except.ok.injEq, eq_comm]
  · rw [if_neg h]
    exact ⟨fun heq => (by cases heq), fun hholds => absurd hholds.inBounds h⟩

/-- A range holds no other bytes than it does. -/
lemma Holds.eq {offset length : Int} {data data' : ByteArray} (h : m.Holds offset length data)
    (h' : m.Holds offset length data') : data = data' := by
  have hinside := h.inBounds
  rw [holds_iff_eq_extract hinside] at h h'
  exact h.trans h'.symm

/-- Writing succeeds just if the range lies inside, and then puts the bytes over it. -/
lemma write_eq_ok_iff {offset : Int32} {data : ByteArray} :
    m.write offset data = .ok m' ↔
      m.InBounds offset.toInt data.size ∧ m' = m.splice offset.toInt.toNat data := by
  unfold write
  by_cases h : m.InBounds offset.toInt data.size
  · rw [if_pos h, Except.ok.injEq]
    exact ⟨fun heq => ⟨h, heq.symm⟩, fun heq => heq.2.symm⟩
  · rw [if_neg h]
    exact ⟨fun heq => (by cases heq), fun heq => absurd heq.1 h⟩

/-- A write succeeds just if its range lies inside the memory. -/
lemma exists_write_iff {offset : Int32} {data : ByteArray} :
    (∃ m', m.write offset data = .ok m') ↔
      0 ≤ offset.toInt ∧ offset.toInt + data.size ≤ m.capacity := by
  constructor
  · rintro ⟨m', h⟩
    obtain ⟨⟨hoffset, _, hend⟩, _⟩ := write_eq_ok_iff.1 h
    exact ⟨hoffset, hend⟩
  · rintro ⟨hoffset, hend⟩
    exact ⟨_, write_eq_ok_iff.2 ⟨⟨hoffset, Int.natCast_nonneg _, hend⟩, rfl⟩⟩

/-- A write that is refused is refused with its own numbers and the capacity. -/
lemma eq_of_write_eq_error {offset : Int32} {data : ByteArray} {e : BoundsError}
    (h : m.write offset data = .error e) :
    e = ⟨offset.toInt, data.size, m.capacity⟩ := by
  unfold write at h
  split at h
  next => cases h
  next => exact (Except.error.inj h).symm

/-- A read succeeds just if its length is not negative and its range lies inside the memory. -/
lemma exists_read_iff {offset length : Int32} : (∃ data, m.read offset length = .ok data) ↔
    0 ≤ offset.toInt ∧ 0 ≤ length.toInt ∧ offset.toInt + length.toInt ≤ m.capacity := by
  constructor
  · rintro ⟨data, h⟩
    exact (read_eq_ok_iff.1 h).inBounds
  · intro h
    exact ⟨_, if_pos h⟩

/-- A read that is refused is refused with its own numbers and the capacity. -/
lemma eq_of_read_eq_error {offset length : Int32} {e : BoundsError}
    (h : m.read offset length = .error e) :
    e = ⟨offset.toInt, length.toInt, m.capacity⟩ := by
  unfold read at h
  split at h
  next => cases h
  next => exact (Except.error.inj h).symm

/-- After bytes were put over others, the new ones stand in their range and the old ones around
it. -/
lemma getElem?_splice {start : Nat} {data : ByteArray} (h : start + data.size ≤ m.capacity)
    (i : Nat) : (m.splice start data).bytes[i]? =
      if start ≤ i ∧ i < start + data.size then data[i - start]? else m.bytes[i]? := by
  have hdata : data.data.size = data.size := rfl
  have hbytes : m.bytes.data.size = m.capacity := rfl
  have hfront : (m.bytes.data.extract 0 start).size = start := by
    rw [Array.size_extract]
    omega
  have hmiddle : (data.data.extract 0 data.size).size = data.size := by
    rw [Array.size_extract]
    omega
  rw [splice, ← getElem?_data]
  simp only [ByteArray.copySlice, Nat.zero_add, Nat.sub_zero, hdata, Nat.min_self,
    Array.getElem?_append, Array.size_append, hfront, hmiddle]
  by_cases hbefore : i < start
  · rw [if_pos (by omega), if_pos hbefore, if_neg (by omega), Array.getElem?_extract,
      if_pos (by omega), Nat.zero_add, getElem?_data]
  by_cases hinside : i < start + data.size
  · rw [if_pos hinside, if_neg hbefore, if_pos ⟨by omega, hinside⟩, Array.getElem?_extract,
      if_pos (by omega), Nat.zero_add, getElem?_data]
  rw [if_neg hinside, if_neg fun h => hinside h.2, Array.getElem?_extract]
  split
  · rw [getElem?_data]
    congr 1
    omega
  · rw [← getElem?_data, Array.getElem?_eq_none (by omega)]

/-- What was written stands in its range. -/
lemma holds_of_write {offset : Int32} {data : ByteArray} (h : m.write offset data = .ok m') :
    m'.Holds offset.toInt data.size data := by
  have hcapacity := capacity_write h
  obtain ⟨hinside, rfl⟩ := write_eq_ok_iff.1 h
  obtain ⟨hoffset, hlength, hend⟩ := hinside
  refine ⟨⟨hoffset, hlength, by omega⟩, (Int.toNat_natCast _).symm, fun k hk => ?_⟩
  rw [getElem?_splice (by omega), if_pos ⟨by omega, by omega⟩, Nat.add_sub_cancel_left]

/-- Bytes outside the range that is written stay as they are. -/
lemma getElem?_of_write {offset : Int32} {data : ByteArray} (h : m.write offset data = .ok m')
    {i : Nat} (hi : (i : Int) < offset.toInt ∨ offset.toInt + data.size ≤ i) :
    m'.bytes[i]? = m.bytes[i]? := by
  obtain ⟨⟨hoffset, hlength, hend⟩, rfl⟩ := write_eq_ok_iff.1 h
  rw [getElem?_splice (by omega), if_neg (by omega)]

end ContractHost.Memory
