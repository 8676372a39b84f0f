import Chronicle.Proofs.Rounding
import Chronicle.Sorting
import Mathlib.Order.Compare
import Mathlib.Order.Lattice

set_option autoImplicit false

/-!
# The order of values

How two values compare does not depend on which of them comes first, and each compares as equal
to itself. Two integers are compared exactly, any other two numbers after the integer among them
was rounded to a float; so a float can be equal to two integers that differ, and the order is not
transitive there (`Json.not_compare?_trans`). Main statements: numbers are ordered exactly if there
is no such float among them (`Number.separated_iff_trans`), and then so are missing values, values
of all kinds and arrays of any depth that hold them (`Json.compare?_total_preorder`).
-/

namespace Chronicle

/-! ## Steps that go on from each other -/

/-- Where neither of two steps goes down, what they lead to compares as the first of them that goes
up, and as equal if neither does. -/
def Chains (ab bc ac : Ordering) : Prop := ab ≠ .gt → bc ≠ .gt → ac = ab.then bc

namespace Chains

variable {ab bc ac ab' bc' ac' : Ordering}

theorem ne_gt (h : Chains ab bc ac) (hab : ab ≠ .gt) (hbc : bc ≠ .gt) : ac ≠ .gt := by
  rw [h hab hbc]
  cases ab with
  | gt => exact absurd rfl hab
  | lt => exact fun hlt => by cases hlt
  | eq => exact hbc

/-- Steps by one criterion and then by another go on from each other if those by the first do, and
those by the second where the first tells nothing apart. -/
theorem lex (h : Chains ab bc ac) (h' : ab = .eq → bc = .eq → Chains ab' bc' ac') :
    Chains (ab.then ab') (bc.then bc') (ac.then ac') := by
  intro hab hbc
  have hfirst : ab ≠ .gt ∧ bc ≠ .gt := by
    constructor
    · rintro rfl
      exact hab rfl
    · rintro rfl
      exact hbc rfl
  rw [h hfirst.1 hfirst.2]
  cases ab with
  | gt => exact absurd rfl hab
  | lt => rfl
  | eq =>
      cases bc with
      | gt => exact absurd rfl hbc
      | eq => exact h' rfl rfl hab hbc
      | lt =>
          -- the first criterion decides the second step, so the second one does not go down
          cases ab' with
          | gt => exact absurd rfl hab
          | _ => rfl

/-- It does not matter which of the steps is taken first. -/
theorem comm (h : Chains ab bc ac) : Chains bc ab ac := by
  intro hbc hab
  rw [h hab hbc]
  cases ab with
  | gt => exact absurd rfl hab
  | eq => cases bc <;> rfl
  | lt =>
      cases bc with
      | gt => exact absurd rfl hbc
      | _ => rfl

/-- The steps of a total preorder go on from each other. -/
theorem of_transCmp {α : Type} (cmp : α → α → Ordering) [Std.TransCmp cmp] (a b c : α) :
    Chains (cmp a b) (cmp b c) (cmp a c) := by
  intro hab hbc
  cases heq : cmp a b with
  | gt => exact absurd heq hab
  | eq => exact Std.TransCmp.congr_left heq
  | lt => exact Std.TransCmp.lt_of_lt_of_isLE heq (Ordering.isLE_iff_ne_gt.mpr hbc)

/-- Steps of integers go on from each other if, where the two go up or stay, the third one does,
and stays only where both do. -/
theorem of_compare {p q r s t u : Int} (h : p ≤ q → r ≤ s → t ≤ u ∧ (t = u ↔ p = q ∧ r = s)) :
    Chains (Ord.compare p q) (Ord.compare r s) (Ord.compare t u) := by
  intro hpq hrs
  rw [Ne, compare_gt_iff_gt, not_lt] at hpq hrs
  obtain ⟨htu, heq⟩ := h hpq hrs
  rcases hpq.lt_or_eq with hlt | rfl
  · rw [compare_lt_iff_lt.mpr hlt]
    exact compare_lt_iff_lt.mpr (by omega)
  rw [Std.compare_self]
  rcases hrs.lt_or_eq with hlt | rfl
  · rw [compare_lt_iff_lt.mpr hlt]
    exact compare_lt_iff_lt.mpr (by omega)
  · rw [Std.compare_self]
    exact compare_eq_iff_eq.mpr (by omega)

end Chains

/-! ## Numbers -/

namespace Number

variable {m n : Int} {x : Binary64}

/-- The number is a float or an integer of 64 bits, signed or unsigned. -/
def IsStorable : Number → Prop
  | int n => minSigned ≤ n ∧ n < unsignedLimit
  | float _ => True

/-- No float among the numbers is the rounding of two integers among them that differ. -/
def Separated (ns : List Number) : Prop :=
  ∀ (m n : Int) (x : Binary64), int m ∈ ns → int n ∈ ns → float x ∈ ns →
    (Binary64.ofInt m).compare x = .eq → (Binary64.ofInt n).compare x = .eq → m = n

theorem compare_toNat {m n : Int} (hm : 0 ≤ m) (hn : 0 ≤ n) :
    Ord.compare m.toNat n.toNat = Ord.compare m n := by
  rcases lt_trichotomy m n with h | rfl | h
  · rw [compare_lt_iff_lt.mpr h, compare_lt_iff_lt]
    omega
  · rw [Std.compare_self, Std.compare_self]
  · rw [compare_gt_iff_gt.mpr h, compare_gt_iff_gt]
    omega

theorem signed?_int (h : minSigned ≤ m ∧ m < signedLimit) : signed? (int m) = some m := if_pos h

theorem unsigned?_int (h : 0 ≤ m ∧ m < unsignedLimit) : unsigned? (int m) = some m.toNat :=
  if_pos h

/-- A negative integer and one beyond the signed are told apart as floats. -/
theorem compare_value_ofInt (h : m < 0 ∧ 0 < n ∨ 0 < m ∧ n < 0) :
    Ord.compare (Binary64.ofInt m).value (Binary64.ofInt n).value = Ord.compare m n := by
  rcases h with ⟨hm, hn⟩ | ⟨hm, hn⟩
  · have hvalues := (Binary64.value_ofInt_neg hm).trans (Binary64.value_ofInt_pos hn)
    rw [compare_lt_iff_lt.mpr hvalues, compare_lt_iff_lt.mpr (hm.trans hn)]
  · have hvalues := (Binary64.value_ofInt_neg hn).trans (Binary64.value_ofInt_pos hm)
    rw [compare_gt_iff_gt.mpr hvalues, compare_gt_iff_gt.mpr (hn.trans hm)]

/-- Integers of 64 bits are compared exactly, even where they are compared as floats. -/
theorem compare_int (hm : (int m).IsStorable) (hn : (int n).IsStorable) :
    compare (int m) (int n) = Ord.compare m n := by
  obtain ⟨hmin, hmax⟩ := hm
  obtain ⟨hnin, hnax⟩ := hn
  have hsigned : 0 < signedLimit := by decide
  unfold compare
  split
  · next m' n' hm' hn' =>
    obtain ⟨-, rfl⟩ := Option.ite_some_none_eq_some.mp hm'
    obtain ⟨-, rfl⟩ := Option.ite_some_none_eq_some.mp hn'
    rfl
  · next hsmall =>
    split
    · next m' n' hm' hn' =>
      obtain ⟨hpos, rfl⟩ := Option.ite_some_none_eq_some.mp hm'
      obtain ⟨hpos', rfl⟩ := Option.ite_some_none_eq_some.mp hn'
      exact compare_toNat hpos.1 hpos'.1
    · next hpos =>
      have hbeyond : ¬(m < signedLimit ∧ n < signedLimit) := fun h =>
        hsmall m n (signed?_int ⟨hmin, h.1⟩) (signed?_int ⟨hnin, h.2⟩)
      have hnegative : ¬(0 ≤ m ∧ 0 ≤ n) := fun h =>
        hpos _ _ (unsigned?_int ⟨h.1, hmax⟩) (unsigned?_int ⟨h.2, hnax⟩)
      exact compare_value_ofInt (by omega)

/-- With a float, a number is compared as a float. -/
theorem compare_float (a : Number) (x : Binary64) :
    a.compare (float x) = Ord.compare a.toBinary64.value x.value := by
  unfold compare
  split
  · next hx => cases hx
  · split
    · next hx => cases hx
    · rfl

theorem float_compare (x : Binary64) (a : Number) :
    (float x).compare a = Ord.compare x.value a.toBinary64.value := by
  unfold compare
  split
  · next hx _ => cases hx
  · split
    · next hx _ => cases hx
    · rfl

theorem compare_self (a : Number) : a.compare a = .eq := by
  unfold compare
  split
  · next hm hn =>
    rw [hm] at hn
    rw [Option.some.inj hn, Std.compare_self]
  · split
    · next hm hn =>
      rw [hm] at hn
      rw [Option.some.inj hn, Std.compare_self]
    · exact Std.compare_self

theorem compare_swap (a b : Number) : b.compare a = (a.compare b).swap := by
  have hints : ∀ m n : Int, Ord.compare n m = (Ord.compare m n).swap :=
    fun m n => Std.OrientedCmp.eq_swap
  have hnats : ∀ m n : Nat, Ord.compare n m = (Ord.compare m n).swap :=
    fun m n => Std.OrientedCmp.eq_swap
  have hfloats : b.toBinary64.compare a.toBinary64 = (a.toBinary64.compare b.toBinary64).swap :=
    hints a.toBinary64.value b.toBinary64.value
  unfold compare
  rcases a.signed? with _ | m <;> rcases b.signed? with _ | n
  case some.some => exact hints m n
  all_goals rcases a.unsigned? with _ | i <;> rcases b.unsigned? with _ | j
  case none.none.some.some | none.some.some.some | some.none.some.some => exact hnats i j
  all_goals exact hfloats

/-- Steps between integers and their roundings go on from each other, if the one float that is
compared is not the rounding of two different integers. -/
theorem chains_rounded (hsep : (Binary64.ofInt m).value = x.value →
      (Binary64.ofInt n).value = x.value → m = n) :
    Chains (Ord.compare m n) (Ord.compare (Binary64.ofInt n).value x.value)
        (Ord.compare (Binary64.ofInt m).value x.value) ∧
      Chains (Ord.compare x.value (Binary64.ofInt m).value) (Ord.compare m n)
        (Ord.compare x.value (Binary64.ofInt n).value) ∧
      Chains (Ord.compare (Binary64.ofInt m).value x.value)
        (Ord.compare x.value (Binary64.ofInt n).value) (Ord.compare m n) := by
  have hle : m ≤ n → (Binary64.ofInt m).value ≤ (Binary64.ofInt n).value :=
    Binary64.value_ofInt_mono
  have hge : n ≤ m → (Binary64.ofInt n).value ≤ (Binary64.ofInt m).value :=
    Binary64.value_ofInt_mono
  refine ⟨Chains.of_compare ?_, Chains.of_compare ?_, Chains.of_compare ?_⟩
  · omega
  · omega
  · omega

/-- Numbers of which no float is the rounding of two different integers go on from each other. -/
theorem compare_chains {ns : List Number} (hns : Separated ns) {a b c : Number}
    (hstorable : ∀ n ∈ [a, b, c], n.IsStorable) (hmem : ∀ n ∈ [a, b, c], n ∈ ns) :
    Chains (a.compare b) (b.compare c) (a.compare c) := by
  simp only [List.forall_mem_cons, List.not_mem_nil, false_imp_iff, implies_true, and_true]
    at hstorable hmem
  obtain ⟨ha, hb, hc⟩ := hstorable
  obtain ⟨hmema, hmemb, hmemc⟩ := hmem
  have hsep : ∀ {m n x}, int m ∈ ns → int n ∈ ns → float x ∈ ns →
      (Binary64.ofInt m).value = x.value → (Binary64.ofInt n).value = x.value → m = n :=
    fun hm hn hx hmx hnx =>
      hns _ _ _ hm hn hx (compare_eq_iff_eq.mpr hmx) (compare_eq_iff_eq.mpr hnx)
  cases a with
  | int m =>
      cases b with
      | int n =>
          cases c with
          | int k =>
              rw [compare_int ha hb, compare_int hb hc, compare_int ha hc]
              exact .of_transCmp _ m n k
          | float x =>
              rw [compare_int ha hb, compare_float, compare_float]
              exact (chains_rounded (hsep hmema hmemb hmemc)).1
      | float x =>
          cases c with
          | int n =>
              rw [compare_int ha hc, compare_float, float_compare]
              exact (chains_rounded (hsep hmema hmemc hmemb)).2.2
          | float y =>
              rw [compare_float, compare_float, compare_float]
              exact .of_transCmp Ord.compare _ x.value y.value
  | float x =>
      cases b with
      | int m =>
          cases c with
          | int n =>
              rw [compare_int hb hc, float_compare, float_compare]
              exact (chains_rounded (hsep hmemb hmemc hmema)).2.1
          | float y =>
              rw [float_compare, compare_float, compare_float]
              exact .of_transCmp Ord.compare x.value _ y.value
      | float y =>
          rw [float_compare, float_compare, float_compare]
          exact .of_transCmp Ord.compare x.value y.value _

/-- Numbers are ordered exactly if no float among them is the rounding of two different integers
among them. -/
theorem separated_iff_trans {ns : List Number} (hstorable : ∀ n ∈ ns, n.IsStorable) :
    Separated ns ↔ ∀ a ∈ ns, ∀ b ∈ ns, ∀ c ∈ ns,
      a.compare b ≠ .gt → b.compare c ≠ .gt → a.compare c ≠ .gt := by
  constructor
  · intro hns a ha b hb c hc
    refine (compare_chains hns (a := a) (b := b) (c := c) ?_ ?_).ne_gt
    · simp [hstorable a ha, hstorable b hb, hstorable c hc]
    · simp [ha, hb, hc]
  · intro htrans
    -- by way of the float, neither of the integers is greater than the other
    have hle : ∀ {m n : Int} {x : Binary64}, int m ∈ ns → int n ∈ ns → float x ∈ ns →
        (Binary64.ofInt m).compare x = .eq → (Binary64.ofInt n).compare x = .eq → m ≤ n := by
      intro m n x hm hn hx hmx hnx
      have hup : (int m).compare (float x) = .eq := (compare_float _ x).trans hmx
      have hdown : (float x).compare (int n) = .eq := by
        rw [compare_swap (int n), compare_float]
        exact congrArg Ordering.swap hnx
      have hstep := htrans _ hm _ hx _ hn (by simp [hup]) (by simp [hdown])
      rw [compare_int (hstorable _ hm) (hstorable _ hn), Ne, compare_gt_iff_gt, not_lt] at hstep
      exact hstep
    exact fun m n x hm hn hx hmx hnx =>
      le_antisymm (hle hm hn hx hmx hnx) (hle hn hm hx hnx hmx)

end Number

/-! ## Values -/

namespace Json

mutual

/-- The numbers that the order looks at: the value itself or those among its items, at any depth.
Objects are compared as texts. -/
def numbers : Json → List Number
  | number n => [n]
  | array items => numbersOfItems items
  | _ => []

/-- The numbers of each item in turn. -/
def numbersOfItems : List Json → List Number
  | [] => []
  | v :: rest => numbers v ++ numbersOfItems rest

end

theorem numbers_subset {v : Json} {items : List Json} (h : v ∈ items) :
    v.numbers ⊆ numbersOfItems items := by
  induction items with
  | nil => cases h
  | cons w rest ih =>
      rw [numbersOfItems]
      rcases List.mem_cons.mp h with rfl | hrest
      · exact List.subset_append_left _ _
      · exact List.subset_append_of_subset_right _ (ih hrest)

/-- Kinds are told apart first. -/
theorem compare_eq_then (v w : Json) :
    v.compare w = (Ord.compare v.rank w.rank).then (v.compare w) := by
  cases v <;> cases w <;> rfl

mutual

theorem compare_self : ∀ v : Json, v.compare v = .eq
  | null => rfl
  | bool b => Std.compare_self (a := b)
  | number n => Number.compare_self n
  | string text => Std.compare_self (a := text)
  | array items => compareItems_self items
  | object fields => Std.compare_self (a := (object fields).text)

theorem compareItems_self : ∀ items : List Json, compareItems items items = .eq
  | [] => rfl
  | v :: rest => by
      rw [compareItems, compare_self v, compareItems_self rest]
      rfl

end

mutual

/-- Which of two values comes first does not depend on which of them is given first. -/
theorem compare_swap (v w : Json) : w.compare v = (v.compare w).swap := by
  have hrank : Ord.compare w.rank v.rank = (Ord.compare v.rank w.rank).swap :=
    Std.OrientedCmp.eq_swap
  cases v <;> cases w
  case bool.bool a b => exact (Std.OrientedCmp.eq_swap : Ord.compare b a = (Ord.compare a b).swap)
  case number.number a b => exact Number.compare_swap a b
  case string.string a b =>
    exact (Std.OrientedCmp.eq_swap : Ord.compare b a = (Ord.compare a b).swap)
  case array.array as bs => exact compareItems_swap as bs
  case object.object as bs =>
    exact (Std.OrientedCmp.eq_swap : Ord.compare (object bs).text (object as).text = _)
  all_goals exact hrank

theorem compareItems_swap : ∀ as bs : List Json, compareItems bs as = (compareItems as bs).swap
  | [], [] => rfl
  | [], _ :: _ => rfl
  | _ :: _, [] => rfl
  | a :: as, b :: bs => by
      rw [compareItems, compareItems, Ordering.swap_then, compare_swap a b, compareItems_swap as bs]

end

mutual

/-- Values go on from each other if no float among their numbers is the rounding of two different
integers among them. -/
theorem compare_chains {ns : List Number} (hsep : Number.Separated ns)
    (hstorable : ∀ n ∈ ns, n.IsStorable) (a b c : Json) (ha : a.numbers ⊆ ns) (hb : b.numbers ⊆ ns)
    (hc : c.numbers ⊆ ns) : Chains (a.compare b) (b.compare c) (a.compare c) := by
  rw [compare_eq_then a b, compare_eq_then b c, compare_eq_then a c]
  refine Chains.lex (.of_transCmp Ord.compare a.rank b.rank c.rank) fun hab hbc => ?_
  replace hab : a.rank = b.rank := compare_eq_iff_eq.mp hab
  replace hbc : b.rank = c.rank := compare_eq_iff_eq.mp hbc
  cases a <;> cases b <;> simp [rank] at hab
  all_goals cases c <;> simp [rank] at hbc
  case null.null.null => exact fun _ _ => rfl
  case bool.bool.bool p q r => exact .of_transCmp Ord.compare p q r
  case number.number.number m n k =>
    simp only [numbers, List.cons_subset, List.nil_subset, and_true] at ha hb hc
    have hmem : ∀ i ∈ [m, n, k], i ∈ ns := by
      simp only [List.forall_mem_cons, List.not_mem_nil, false_imp_iff, implies_true, and_true]
      exact ⟨ha, hb, hc⟩
    exact Number.compare_chains hsep (fun i hi => hstorable i (hmem i hi)) hmem
  case string.string.string p q r => exact .of_transCmp Ord.compare p q r
  case array.array.array as bs cs => exact compareItems_chains hsep hstorable as bs cs ha hb hc
  case object.object.object as bs cs => exact .of_transCmp Ord.compare _ (object bs).text _

theorem compareItems_chains {ns : List Number} (hsep : Number.Separated ns)
    (hstorable : ∀ n ∈ ns, n.IsStorable) (as bs cs : List Json)
    (ha : numbersOfItems as ⊆ ns) (hb : numbersOfItems bs ⊆ ns) (hc : numbersOfItems cs ⊆ ns) :
    Chains (compareItems as bs) (compareItems bs cs) (compareItems as cs) := by
  match as, bs, cs with
  | [], [], [] => exact fun _ _ => rfl
  | [], [], _ :: _ => exact fun _ _ => rfl
  | [], _ :: _, _ :: _ => exact fun _ _ => rfl
  | _, _ :: _, [] => exact fun _ hbc => absurd rfl hbc
  | _ :: _, [], _ => exact fun hab _ => absurd rfl hab
  | a :: as, b :: bs, c :: cs =>
    rw [numbersOfItems, List.append_subset] at ha hb hc
    have hfirst := compare_chains hsep hstorable a b c ha.1 hb.1 hc.1
    have hrest := compareItems_chains hsep hstorable as bs cs ha.2 hb.2 hc.2
    exact hfirst.lex fun _ _ => hrest

end

/-! ## Values that may be missing -/

/-- Comparison of values of which any may be missing: each compares as equal to itself, the other
way round the answer is the reverse, and where no float among the numbers of three values is the
rounding of two different integers among them, steps that do not go down lead to no smaller
value. -/
theorem compare?_total_preorder (a b c : Option Json) :
    compare? a a = .eq ∧ compare? b a = (compare? a b).swap ∧
      ((∀ n ∈ numbersOfItems (a.toList ++ b.toList ++ c.toList), n.IsStorable) →
        Number.Separated (numbersOfItems (a.toList ++ b.toList ++ c.toList)) →
        compare? a b ≠ .gt → compare? b c ≠ .gt → compare? a c ≠ .gt) := by
  refine ⟨?_, ?_, fun hstorable hsep hab hbc => ?_⟩
  · cases a with
    | none => rfl
    | some v => exact compare_self v
  · cases a with
    | none => cases b <;> rfl
    | some v =>
        cases b with
        | none => rfl
        | some w => exact compare_swap v w
  · cases a with
    | none => cases c <;> exact nofun
    | some v =>
        cases b with
        | none => exact absurd rfl hab
        | some w =>
            cases c with
            | none => exact absurd rfl hbc
            | some u =>
                have hnumbers : ∀ x ∈ [v, w, u], x.numbers ⊆ numbersOfItems [v, w, u] :=
                  fun x hx => numbers_subset hx
                simp only [List.forall_mem_cons] at hnumbers
                obtain ⟨hv, hw, hu, -⟩ := hnumbers
                exact (compare_chains hsep hstorable v w u hv hw hu).ne_gt hab hbc

/-- An array with 2⁵³ + 1 in front is not after another one, by way of one with 2⁵³ as a float:
the two first items are equal to it, and the second items decide. -/
theorem compare?_array_of_rounded :
    compare? (some (array [number (.int 9007199254740993), null]))
      (some (array [number (.int 9007199254740993), array [number (.int 7)]])) ≠ .gt := by
  refine (compare?_total_preorder _
    (some (array [number (.float (Binary64.ofInt 9007199254740992)), bool true])) _).2.2
      ?_ ?_ (by decide +kernel) (by decide +kernel)
  · simp only [Option.toList, List.cons_append, List.nil_append, numbersOfItems, numbers,
      List.append_nil, List.forall_mem_cons, List.not_mem_nil, false_imp_iff, implies_true,
      and_true, Number.IsStorable]
    decide
  · intro m n x hm hn hx hmx hnx
    simp only [Option.toList, List.cons_append, List.nil_append, numbersOfItems, numbers,
      List.append_nil, List.mem_cons, List.not_mem_nil, Number.int.injEq, Number.float.injEq,
      reduceCtorEq, or_false, false_or] at hm hn hx
    subst hx
    have hseven : (Binary64.ofInt 7).compare (Binary64.ofInt 9007199254740992) ≠ .eq := by
      decide +kernel
    grind

/-- A float that two integers are rounded to is equal to both, and the integers differ. -/
theorem not_compare?_trans :
    ¬∀ a b c : Option Json,
      (∀ n ∈ numbersOfItems (a.toList ++ b.toList ++ c.toList), n.IsStorable) →
        compare? a b ≠ .gt → compare? b c ≠ .gt → compare? a c ≠ .gt := by
  intro h
  have hstorable : ∀ n ∈ [Number.int 9007199254740993,
      .float (Binary64.ofInt 9007199254740992), .int 9007199254740992], n.IsStorable := by
    simp only [List.forall_mem_cons, List.not_mem_nil, false_imp_iff, implies_true, and_true,
      Number.IsStorable]
    decide
  have hstep := h (some (number (.int 9007199254740993)))
    (some (number (.float (Binary64.ofInt 9007199254740992))))
    (some (number (.int 9007199254740992))) hstorable
  revert hstep
  decide +kernel

end Json

end Chronicle
