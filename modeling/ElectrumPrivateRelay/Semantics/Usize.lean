/-! Checked arithmetic on 64-bit unsigned sizes. -/

set_option autoImplicit false

namespace Semantics

def usizeMax : Nat := UInt64.size - 1

/-- The value when it fits, as `checked_add` and `checked_mul` return it. -/
def checkedUsize (value : Nat) : Option Nat :=
  if value ≤ usizeMax then some value else none

theorem checkedUsize_eq_some {value result : Nat} :
    checkedUsize value = some result ↔ value ≤ usizeMax ∧ result = value := by
  unfold checkedUsize
  split
  · next fits => simp [fits, eq_comm]
  · next overflow => simp [overflow]

end Semantics
