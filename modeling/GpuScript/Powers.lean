/-!
# Powers of two and of ten

The widths of binary fields are powers of two, and decimal places are powers of ten.
-/

namespace GpuScript

def twoPow (n : Nat) : Nat := Nat.pow 2 n

def tenPow (n : Nat) : Nat := Nat.pow 10 n

theorem twoPow_pos (n : Nat) : 0 < twoPow n := Nat.pow_pos (by decide)

end GpuScript
