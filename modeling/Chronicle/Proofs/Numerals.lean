import Chronicle.Text.Digits
import Mathlib.Algebra.Ring.Nat
import Mathlib.Data.List.Induction
import Mathlib.Data.Nat.Basic

set_option autoImplicit false

/-!
# Decimal texts of numbers

The digits of a number spell that number again: its decimal text without leading zeros
(`Text.digitsValue_toDigits`), and its lowest digits at a fixed width
(`Text.digitsValue_paddedDigits`). Numbers written at one width are in the order of their texts
(`Text.paddedDigits_append_lt_iff`).
-/

namespace Chronicle.Text

theorem isDigit_eq (c : Char) : isDigit c = c.isDigit := by
  rw [Bool.eq_iff_iff]
  simp [isDigit, Char.isDigit, Char.le_def, UInt32.le_iff_toNat_le]

theorem digitsValue_concat (ds : List Char) (d : Char) :
    digitsValue (ds ++ [d]) = digitsValue ds * 10 + digitValue d := by
  rw [digitsValue, List.foldl_append]
  rfl

theorem digitValue_lt {c : Char} (h : isDigit c = true) : digitValue c < 10 := by
  rw [isDigit, Bool.and_eq_true, decide_eq_true_eq, decide_eq_true_eq] at h
  have hnine : c.toNat ≤ '9'.toNat := h.2
  have hvalue : '9'.toNat = 57 := rfl
  unfold digitValue
  omega

theorem digitsValue_lt {ds : List Char} (h : ∀ d ∈ ds, isDigit d = true) :
    digitsValue ds < 10 ^ ds.length := by
  induction ds using List.reverseRecOn with
  | nil => exact Nat.one_pos
  | append_singleton ds d ih =>
      rw [List.forall_mem_append] at h
      have hfirst := ih h.1
      have hlast := digitValue_lt (h.2 d List.mem_cons_self)
      rw [digitsValue_concat, List.length_append, List.length_singleton, Nat.pow_succ]
      omega

/-! ## Without leading zeros -/

theorem isDigit_of_mem_toDigits {n : Nat} {c : Char} (h : c ∈ Nat.toDigits 10 n) :
    isDigit c = true := by
  rw [isDigit_eq]
  exact Nat.isDigit_of_mem_toDigits (by decide) (by decide) h

theorem digitsValue_toDigits (n : Nat) : digitsValue (Nat.toDigits 10 n) = n := by
  calc digitsValue (Nat.toDigits 10 n)
      = Nat.ofDigitChars 10 (Nat.toDigits 10 n) 0 := by
        rw [Nat.ofDigitChars_eq_foldl, digitsValue]
        congr 1
        funext m c
        rw [Nat.mul_comm, digitValue]
        rfl
    _ = n := Nat.ofDigitChars_ten_toDigits

/-- Only the number zero is written with a zero in front. -/
theorem head?_toDigits_ne {n : Nat} (h : 0 < n) : (Nat.toDigits 10 n).head? ≠ some '0' := by
  induction n using Nat.strong_induction_on with
  | _ n ih =>
      rcases Nat.lt_or_ge n 10 with hsmall | hlarge
      · have hall : ∀ k : Fin 10, 0 < k.val → [Nat.digitChar k.val].head? ≠ some '0' := by decide
        rw [Nat.toDigits_of_lt_base hsmall]
        exact hall ⟨n, hsmall⟩ h
      · have hrest := ih (n / 10) (by omega) (by omega)
        rw [Nat.toDigits_of_base_le (by decide) hlarge, List.head?_append]
        cases hhead : (Nat.toDigits 10 (n / 10)).head? with
        | none => exact absurd (List.head?_eq_none_iff.mp hhead) Nat.toDigits_ne_nil
        | some c => rwa [hhead] at hrest

/-! ## At a fixed width -/

theorem isDigit_digit {d : Nat} (h : d < 10) :
    isDigit (Char.ofNat (d + 48)) = true ∧ digitValue (Char.ofNat (d + 48)) = d := by
  have hall : ∀ k : Fin 10, isDigit (Char.ofNat (k.val + 48)) = true ∧
      digitValue (Char.ofNat (k.val + 48)) = k.val := by decide
  exact hall ⟨d, h⟩

theorem length_paddedDigits (width n : Nat) : (paddedDigits width n).length = width := by
  induction width generalizing n with
  | zero => rfl
  | succ width ih => rw [paddedDigits, List.length_append, ih, List.length_singleton]

theorem isDigit_of_mem_paddedDigits {width n : Nat} {c : Char} (h : c ∈ paddedDigits width n) :
    isDigit c = true := by
  induction width generalizing n with
  | zero => cases h
  | succ width ih =>
      rw [paddedDigits, List.mem_append, List.mem_singleton] at h
      rcases h with h | rfl
      · exact ih h
      · exact (isDigit_digit (Nat.mod_lt n (by decide))).1

/-- The lowest digits of a number spell what is left of it. -/
theorem digitsValue_paddedDigits (width n : Nat) :
    digitsValue (paddedDigits width n) = n % 10 ^ width := by
  induction width generalizing n with
  | zero => rw [Nat.pow_zero, Nat.mod_one]; rfl
  | succ width ih =>
      have hlast := (isDigit_digit (Nat.mod_lt n (by decide : 0 < 10))).2
      rw [paddedDigits, digitsValue_concat, ih, hlast, Nat.pow_succ, Nat.mul_comm (10 ^ width),
        Nat.mod_mul]
      omega

/-! ## In order -/

theorem digit_lt_iff {d e : Nat} (hd : d < 10) (he : e < 10) :
    (Char.ofNat (d + 48) < Char.ofNat (e + 48) ↔ d < e) ∧
      (Char.ofNat (d + 48) = Char.ofNat (e + 48) ↔ d = e) := by
  have hall : ∀ i j : Fin 10,
      (Char.ofNat (i.val + 48) < Char.ofNat (j.val + 48) ↔ i.val < j.val) ∧
        (Char.ofNat (i.val + 48) = Char.ofNat (j.val + 48) ↔ i.val = j.val) := by decide
  exact hall ⟨d, hd⟩ ⟨e, he⟩

/-- Numbers written at one width are in the order of their texts, and what follows them counts only
if they are the same. -/
theorem paddedDigits_append_lt_iff {width m n : Nat} (hm : m < 10 ^ width) (hn : n < 10 ^ width)
    (as bs : List Char) :
    paddedDigits width m ++ as < paddedDigits width n ++ bs ↔ m < n ∨ m = n ∧ as < bs := by
  induction width generalizing m n as bs with
  | zero =>
      rw [Nat.pow_zero, Nat.lt_one_iff] at hm hn
      simp [paddedDigits, hm, hn]
  | succ width ih =>
      rw [Nat.pow_succ] at hm hn
      -- the last digits are the first of what follows the others
      obtain ⟨hlt, heq⟩ := digit_lt_iff (Nat.mod_lt m (by decide)) (Nat.mod_lt n (by decide))
      rw [paddedDigits, paddedDigits, List.append_assoc, List.append_assoc,
        ih (by omega) (by omega), List.singleton_append, List.singleton_append,
        List.cons_lt_cons_iff, hlt, heq]
      by_cases hrest : as < bs
      · simp only [hrest, and_true]
        omega
      · simp only [hrest, and_false, or_false]
        omega

end Chronicle.Text
