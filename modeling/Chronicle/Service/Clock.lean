import Chronicle.Timestamp.Basic

set_option autoImplicit false

/-!
# The clock

A clock that hands out strictly increasing instants, whatever the wall clock reads: a reading
that is not later than the last instant is replaced by the microsecond after that.
-/

namespace Chronicle

/-- The readings of the wall clock, how many were taken, and the last instant handed out. -/
structure Clock where
  reading : Nat → Timestamp
  taken : Nat := 0
  last : Option Timestamp := none

namespace Clock

/-- The next instant. -/
def next (c : Clock) : Timestamp :=
  let now := c.reading c.taken
  match c.last with
  | some last => if now ≤ last then last.next else now
  | none => now

/-- The clock once its next instant is handed out. -/
def advance (c : Clock) : Clock := { c with taken := c.taken + 1, last := some c.next }

end Clock

end Chronicle
