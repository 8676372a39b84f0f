set_option autoImplicit false

/-!
# Words

How many values fit into a given number of bits.
-/

namespace Chronicle.Word

/-- One more than the greatest number that `bits` bits can hold. -/
def limit (bits : Nat) : Nat := Nat.pow 2 bits

/-- Some number fits into any number of bits. -/
theorem limit_pos (bits : Nat) : 0 < limit bits := Nat.pow_pos (by decide)

end Chronicle.Word
