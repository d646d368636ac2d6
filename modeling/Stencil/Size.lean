/-!
# Sizes

A `Size` counts arguments, open calls or bytes.  It has 64 bits, and `Size.largest` is
the greatest number a size can hold.  A text takes at most `Size.capacity` bytes, which is
half as many.
-/

namespace Stencil

/-- A count of 64 bits. -/
abbrev Size := UInt64

/-- The greatest size, `2 ^ 64 - 1`. -/
def Size.largest : Size := 18446744073709551615

/-- The greatest number of bytes that a text can take, `2 ^ 63 - 1`. -/
def Size.capacity : Size := 9223372036854775807

theorem Size.toNat_le_largest (n : Size) :
  n.toNat ≤ Size.largest.toNat
  := Nat.le_of_lt_succ n.toNat_lt

/-- Counting up below another size does not overflow. -/
theorem Size.toNat_add_one_of_lt {n limit : Size} (h : n < limit) :
  (n + 1).toNat = n.toNat + 1
  := by
  have hlt := UInt64.lt_iff_toNat_lt.mp h
  have hlimit := limit.toNat_lt
  rw [UInt64.toNat_add]
  simp only [UInt64.toNat_one]
  omega

end Stencil
