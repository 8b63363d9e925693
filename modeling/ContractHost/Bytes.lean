/-!
# Bytes

The equality of byte arrays is decided on their bytes, one after the other; `payload = payload'`
and the like in records, memories and modules mean this test and no other.  Long runs of zero bytes
are made by doubling, and are the same as zeros put down one by one (`zeroBytes_eq`).
-/

namespace ContractHost

/-- Whether two byte arrays hold the same bytes. -/
instance (priority := 2000) decidableEqBytes : DecidableEq ByteArray :=
  ByteArray.instDecidableEq

/-- So many zero bytes. -/
def zeroBytes (n : Nat) : ByteArray :=
  if n = 0 then .empty
  else
    let half := zeroBytes (n / 2)
    if n % 2 = 0 then half ++ half else (half ++ half).push 0
termination_by n

/-- Doubling gives nothing but zeros, and as many as were asked for. -/
theorem zeroBytes_eq (n : Nat) : zeroBytes n = ⟨Array.replicate n 0⟩ := by
  fun_induction zeroBytes n with
  | case1 => rfl
  | case2 n hn half even ih =>
    have : n = n / 2 + n / 2 := by omega
    rw [show half = _ from ih]
    apply ByteArray.ext
    rw [ByteArray.data_append, Array.replicate_append_replicate, ← this]
  | case3 n hn half odd ih =>
    have : n = n / 2 + n / 2 + 1 := by omega
    rw [show half = _ from ih]
    apply ByteArray.ext
    rw [ByteArray.data_push, ByteArray.data_append, Array.replicate_append_replicate,
      ← Array.replicate_succ, ← this]

theorem size_zeroBytes (n : Nat) : (zeroBytes n).size = n := by
  rw [zeroBytes_eq]
  exact Array.size_replicate

end ContractHost
