import Chronicle.Filter.Basic
import Chronicle.Text.Occurrence

set_option autoImplicit false

/-!
# What filters accept

The meaning of a filter: which values it accepts. Numbers are equal by value; only two numbers,
two strings or two booleans are ordered; string tests hold on strings alone, except that a
pattern is also tried on the string elements of an array.
-/

namespace Chronicle

namespace Json

/-- Equality in filters: numbers by value, all else structurally. -/
def agrees : Json → Json → Bool
  | number a, number b => a.compare b == .eq
  | v, w => v.same w

/-- The order of two values of one ordered kind. -/
def order? : Json → Json → Option Ordering
  | number a, number b => some (a.compare b)
  | string a, string b => some (Ord.compare a b)
  | bool a, bool b => some (Ord.compare a b)
  | _, _ => none

/-- Whether the value is a string that contains the text. -/
def hasText (text : String) : Json → Bool
  | string s => Text.contains text.toList s.toList
  | _ => false

/-- Whether the value is a string that starts with the text. -/
def startsWithText (text : String) : Json → Bool
  | string s => Text.startsWith text.toList s.toList
  | _ => false

/-- Whether the value is a string that the pattern matches. -/
def fits (pattern : Pattern) : Json → Bool
  | string s => pattern.isMatch s
  | _ => false

theorem hasText_eq_false (text : String) (v : Json) (h : v.string? = none) :
    v.hasText text = false := by
  cases v <;> first | rfl | cases h

theorem startsWithText_eq_false (text : String) (v : Json) (h : v.string? = none) :
    v.startsWithText text = false := by
  cases v <;> first | rfl | cases h

theorem fits_eq_false (pattern : Pattern) (v : Json) (h : v.string? = none) :
    v.fits pattern = false := by
  cases v <;> first | rfl | cases h

/-- Whether the value, or one of its elements if it is an array, passes the test. -/
def selfOrElement (test : Json → Bool) : Json → Bool
  | array items => items.any test
  | v => test v

end Json

mutual

/-- Whether the filter accepts the value. -/
def Filter.accepts : Filter → Json → Bool
  | .all clauses, v => Filter.allAccept clauses v
  | .any clauses, v => Filter.anyAccepts clauses v
  | .not clause, v => !clause.accepts v
  | .field path condition, v => condition.holds (path.resolve v)

/-- Whether every filter of the list accepts the value. -/
def Filter.allAccept : List Filter → Json → Bool
  | [], _ => true
  | f :: fs, v => f.accepts v && Filter.allAccept fs v

/-- Whether some filter of the list accepts the value. -/
def Filter.anyAccepts : List Filter → Json → Bool
  | [], _ => false
  | f :: fs, v => f.accepts v || Filter.anyAccepts fs v

/-- Whether the condition holds of what was found. -/
def Condition.holds : Condition → Option Json → Bool
  | .equals expected, found => found.any fun v => v.agrees expected
  | .passes tests, found => Test.allHold tests found

/-- Whether every test of the list holds of what was found. -/
def Test.allHold : List Test → Option Json → Bool
  | [], _ => true
  | t :: ts, found => t.holds found && Test.allHold ts found

/-- Whether the test holds of what was found. -/
def Test.holds : Test → Option Json → Bool
  | .equal expected, found => found.any fun v => v.agrees expected
  | .differs expected, found => !found.any fun v => v.agrees expected
  | .compares relation bound, found =>
      (found.bind fun v => v.order? bound).any fun o => relation.holds o
  | .oneOf values, found => found.any fun v => values.any fun w => v.agrees w
  | .defined expected, found => (found.any fun v => !v.isNull) == expected
  | .contains text, found => found.any fun v => v.hasText text
  | .beginsWith text, found => found.any fun v => v.startsWithText text
  | .fits pattern, found => found.any fun v => v.selfOrElement fun w => w.fits pattern
  | .includes member, found => found.any fun v => member.isIn v
  | .under key condition, found => condition.holds (found.bind fun v => v.step key)

/-- Whether the value is an array with such an element, or for a text a string that contains it. -/
def Member.isIn : Member → Json → Bool
  | .containing text, v => v.selfOrElement fun w => w.hasText text
  | .equalTo expected, .array items => items.any fun v => v.agrees expected
  | .satisfying filter, .array items => items.any fun v => filter.accepts v
  | _, _ => false

end

end Chronicle
