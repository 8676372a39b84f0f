import Chronicle.Filter.Evaluation
import Chronicle.Proofs.ValueOrder

set_option autoImplicit false

/-!
# Tests that compare with a bound

Two numbers, two strings or two booleans stand in one of three ways to each other, and the order of
values says in which. The range tests and equality both go by it (`Json.Ordered.order?_eq`,
`Json.Ordered.agrees_eq`), while between values of two kinds neither holds. Main statement: the six
tests that compare with a bound agree with each other and with the order of values, in which
integers stand as integers do (`Test.comparisons_agree`).
-/

namespace Chronicle

/-! ## Values that are ordered -/

theorem beq_eq_compare {α : Type} [DecidableEq α] [Ord α] [Std.LawfulEqOrd α] (a b : α) :
    (a == b) = (Ord.compare a b == .eq) := by
  rw [Bool.eq_iff_iff, beq_iff_eq, beq_iff_eq]
  exact Std.LawfulEqOrd.compare_eq_iff_eq.symm

namespace Json

variable {v bound : Json}

/-- The values are of one kind, and that kind is ordered. -/
inductive Ordered : Json → Json → Prop
  | bools (a b : Bool) : Ordered (bool a) (bool b)
  | numbers (a b : Number) : Ordered (number a) (number b)
  | strings (a b : String) : Ordered (string a) (string b)

namespace Ordered

/-- Where filters order two values, they do so as the order of values does. -/
theorem order?_eq (h : Ordered v bound) : v.order? bound = some (v.compare bound) := by
  cases h with
  | bools a b => rfl
  | numbers a b => rfl
  | strings a b => rfl

/-- Filters find those equal that compare as equal. -/
theorem agrees_eq (h : Ordered v bound) : v.agrees bound = (v.compare bound == .eq) := by
  cases h with
  | bools a b => exact beq_eq_compare a b
  | numbers a b => rfl
  | strings a b => exact beq_eq_compare a b

end Ordered

theorem order?_of_rank_ne (h : v.rank ≠ bound.rank) : v.order? bound = none := by
  cases v <;> cases bound
  -- what is of no ordered kind is not ordered, whatever the other value is
  case bool.bool | number.number | string.string => exact absurd rfl h
  all_goals rfl

theorem agrees_of_rank_ne (h : v.rank ≠ bound.rank) : v.agrees bound = false := by
  cases v <;> cases bound
  case null.null | bool.bool | number.number | string.string | array.array | object.object =>
    exact absurd rfl h
  all_goals rfl

end Json

/-! ## The tests -/

namespace Test

variable {v bound : Json} {found : Option Json}

/-- The test whether a value stands to the bound in the given way: below it, at it or above it. -/
def stands (bound : Json) : Ordering → Test
  | .lt => .compares .less bound
  | .eq => .equal bound
  | .gt => .compares .greater bound

theorem holds_compares (h : Json.Ordered v bound) (relation : Relation) :
    (Test.compares relation bound).holds (some v) = relation.holds (v.compare bound) := by
  rw [Test.holds, Option.bind_some, h.order?_eq, Option.any_some]

theorem holds_stands (h : Json.Ordered v bound) (o : Ordering) :
    (stands bound o).holds (some v) = (v.compare bound == o) := by
  cases o with
  | lt => exact holds_compares h .less
  | gt => exact holds_compares h .greater
  | eq =>
      show (Test.equal bound).holds (some v) = _
      rw [Test.holds, Option.any_some, h.agrees_eq]

/-- The tests that compare with a bound give one verdict on a value, which is that of the order of
values. -/
structure OneVerdict (v bound : Json) : Prop where
  one : ∃! o, (stands bound o).holds (some v) = true
  verdict : ∀ o, (stands bound o).holds (some v) = true ↔ v.compare bound = o
  atMost : (Test.compares .atMost bound).holds (some v) =
    ((Test.compares .less bound).holds (some v) || (Test.equal bound).holds (some v))
  atLeast : (Test.compares .atLeast bound).holds (some v) =
    ((Test.compares .greater bound).holds (some v) || (Test.equal bound).holds (some v))
  differs : (Test.differs bound).holds (some v) = !(Test.equal bound).holds (some v)

theorem oneVerdict_of_ordered (h : Json.Ordered v bound) : OneVerdict v bound := by
  have hverdict : ∀ o, (stands bound o).holds (some v) = true ↔ v.compare bound = o := by
    intro o
    rw [holds_stands h, beq_iff_eq]
  have hless := holds_stands h .lt
  have hequal := holds_stands h .eq
  have hgreater := holds_stands h .gt
  simp only [stands] at hless hequal hgreater
  refine { one := ?_, verdict := hverdict, atMost := ?_, atLeast := ?_, differs := rfl }
  · refine ⟨v.compare bound, (hverdict _).mpr rfl, ?_⟩
    intro o ho
    exact ((hverdict o).mp ho).symm
  · rw [holds_compares h, hless, hequal]
    cases v.compare bound <;> rfl
  · rw [holds_compares h, hgreater, hequal]
    cases v.compare bound <;> rfl

/--
The tests that compare with a bound agree. Integers of 64 bits, signed or unsigned, compare exactly.
On two numbers, two strings or two booleans the tests give one verdict, that of the order of values:
exactly one of less, equal and greater holds, at most is less or equal, at least is greater or
equal, and differing is not being equal. On a value of another kind than the bound, or on none, no
range test holds, and neither does equality.
-/
theorem comparisons_agree :
    (∀ m n : Int, (Number.int m).IsStorable → (Number.int n).IsStorable →
        (Number.int m).compare (Number.int n) = Ord.compare m n) ∧
      (∀ v bound : Json, Json.Ordered v bound → OneVerdict v bound) ∧
      ∀ (found : Option Json) (bound : Json), (∀ v ∈ found, v.rank ≠ bound.rank) →
        (∀ relation, (Test.compares relation bound).holds found = false) ∧
          (Test.equal bound).holds found = false := by
  refine ⟨fun _ _ hm hn => Number.compare_int hm hn, fun _ _ h => oneVerdict_of_ordered h, ?_⟩
  intro found bound hkind
  cases found with
  | none => exact ⟨fun _ => rfl, rfl⟩
  | some v =>
      have hrank : v.rank ≠ bound.rank := hkind v rfl
      constructor
      · intro relation
        rw [Test.holds, Option.bind_some, Json.order?_of_rank_ne hrank]
        rfl
      · rw [Test.holds, Option.any_some, Json.agrees_of_rank_ne hrank]

/-- The least and the greatest integer, two integers that are rounded to one float, two texts of
digits, and a number with a text. -/
theorem comparisons_agree_extremes :
    (Test.compares .less (.ofInt 18446744073709551615)).holds
        (some (.ofInt (-9223372036854775808))) = true ∧
      (Test.equal (.ofInt 9007199254740992)).holds (some (.ofInt 9007199254740993)) = false ∧
      (∃! o, (stands (.string "9") o).holds (some (.string "10")) = true) ∧
      (Test.compares .atMost (.string "9")).holds (some (.ofInt 9)) = false := by
  obtain ⟨hexact, hverdict, hkinds⟩ := comparisons_agree
  refine ⟨?_, ?_, (hverdict _ _ (.strings "10" "9")).one, ?_⟩
  · have hcompare := hexact (-9223372036854775808) 18446744073709551615
      ⟨by decide, by decide⟩ ⟨by decide, by decide⟩
    apply ((hverdict _ _ (.numbers _ _)).verdict .lt).mpr
    exact hcompare.trans (by decide)
  · have hcompare := hexact 9007199254740993 9007199254740992
      ⟨by decide, by decide⟩ ⟨by decide, by decide⟩
    have hgreater := hcompare.trans (by decide : _ = Ordering.gt)
    rw [← Bool.not_eq_true]
    intro hequal
    have heq := ((hverdict _ _ (.numbers _ _)).verdict .eq).mp hequal
    exact absurd (hgreater.symm.trans heq) (by decide)
  · apply (hkinds (some (.ofInt 9)) (.string "9") _).1
    rintro v ⟨⟩
    decide

end Test

end Chronicle
