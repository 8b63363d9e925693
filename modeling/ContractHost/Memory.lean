import ContractHost.Bytes
import ContractHost.HostError

/-!
# Guest memory

A memory is a byte array.  The host reaches it only through `read` and `write`, which check the
whole range before they touch a byte: a range that is not inside is refused with its own numbers,
and nothing is copied.  The capacity changes only by `grow`.
-/

namespace ContractHost

/-- The bytes in one page. -/
def pageSize : Nat := 65536

/-- The linear memory of a guest. -/
structure Memory where
  bytes : ByteArray
  deriving DecidableEq

namespace Memory

/-- A memory without bytes. -/
def empty : Memory := ⟨ByteArray.empty⟩

/-- A memory of `n` zero bytes. -/
def zeros (n : Nat) : Memory := ⟨zeroBytes n⟩

/-- The number of bytes. -/
def capacity (m : Memory) : Nat := m.bytes.size

/-- The number of whole pages. -/
def pages (m : Memory) : Nat := m.capacity / pageSize

/-- A range lies inside a memory if it starts at or after zero, has no negative length, and ends
at or before the capacity. -/
def InBounds (m : Memory) (offset length : Int) : Prop :=
  0 ≤ offset ∧ 0 ≤ length ∧ offset + length ≤ m.capacity

instance (m : Memory) (offset length : Int) : Decidable (m.InBounds offset length) :=
  inferInstanceAs (Decidable (_ ∧ _ ∧ _))

/-- A copy of the bytes of a range. -/
def read (m : Memory) (offset length : Int32) : Except BoundsError ByteArray :=
  if m.InBounds offset.toInt length.toInt then
    .ok (m.bytes.extract offset.toInt.toNat (offset.toInt.toNat + length.toInt.toNat))
  else .error ⟨offset.toInt, length.toInt, m.capacity⟩

/-- The memory with `data` put over the bytes from position `start` on. -/
def splice (m : Memory) (start : Nat) (data : ByteArray) : Memory :=
  ⟨data.copySlice 0 m.bytes start data.size⟩

/-- The memory with `data` written at `offset`. -/
def write (m : Memory) (offset : Int32) (data : ByteArray) : Except BoundsError Memory :=
  if m.InBounds offset.toInt data.size then .ok (m.splice offset.toInt.toNat data)
  else .error ⟨offset.toInt, data.size, m.capacity⟩

/-- The memory with `n` zero bytes more at the end. -/
def grow (m : Memory) (n : Nat) : Memory := ⟨m.bytes ++ zeroBytes n⟩

/-- Putting bytes over bytes inside a memory keeps its capacity. -/
theorem capacity_splice (m : Memory) (start : Nat) (data : ByteArray)
    (h : start + data.size ≤ m.capacity) : (m.splice start data).capacity = m.capacity := by
  have hs : data.data.size = data.size := rfl
  have hm : m.bytes.data.size = m.capacity := rfl
  simp only [splice, capacity, ByteArray.copySlice, ByteArray.size, Array.size_append,
    Array.size_extract]
  simp only [hs, hm]
  omega

/-- Writing keeps the capacity. -/
theorem capacity_write {m m' : Memory} {offset : Int32} {data : ByteArray}
    (h : m.write offset data = .ok m') : m'.capacity = m.capacity := by
  unfold write at h
  split at h
  next inside =>
    cases h
    obtain ⟨h₀, _, h₁⟩ := inside
    exact capacity_splice _ _ _ (by omega)
  next => cases h

end Memory

end ContractHost
