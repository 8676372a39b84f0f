import Chronicle.Decimal.Binary64
import Mathlib.Data.Nat.Log

set_option autoImplicit false

/-!
# Rounding keeps the order

A greater number is never rounded to a smaller float. Between two powers of two the floats are
evenly spaced and rounding a quotient keeps the order; across a power of two, the power itself
stands between the two results. Main statements: so it is for quotients (`nearest_mono`) and for
integers (`value_ofInt_mono`), an integer that is not zero keeps its sign
(`value_ofInt_neg`, `value_ofInt_pos`), and one that is the value of a float is rounded to that
value (`value_ofInt_of_representable`).
-/

namespace Chronicle.Binary64

variable {a b den : Nat}

/-! ## Quotients rounded to integers -/

theorem div_le_roundDiv (num den : Nat) : num / den ≤ roundDiv num den := by
  unfold roundDiv
  dsimp only
  split_ifs <;> omega

theorem roundDiv_le_div_add_one (num den : Nat) : roundDiv num den ≤ num / den + 1 := by
  unfold roundDiv
  dsimp only
  split_ifs <;> omega

/-- Of two numerators with one quotient, the greater remainder rounds up if the other does. -/
theorem roundDiv_mono (h : a ≤ b) (den : Nat) : roundDiv a den ≤ roundDiv b den := by
  rcases (Nat.div_le_div_right h : a / den ≤ b / den).lt_or_eq with hlt | heq
  · calc roundDiv a den ≤ a / den + 1 := roundDiv_le_div_add_one a den
      _ ≤ b / den := hlt
      _ ≤ roundDiv b den := div_le_roundDiv b den
  · have hmod : a % den ≤ b % den := by
      have ha := Nat.div_add_mod a den
      have hb := Nat.div_add_mod b den
      rw [heq] at ha
      omega
    unfold roundDiv
    dsimp only
    rw [heq]
    split_ifs <;> omega

/-! ## Quotients rounded to floats -/

theorem spacing_pos (units : Nat) : 0 < spacing units := Nat.pow_pos (by decide)

/-- Each power of two from the one at or below a magnitude on is a multiple of its spacing. -/
theorem spacing_dvd {units k : Nat} (h : Nat.log2 units ≤ k) : spacing units ∣ Nat.pow 2 k :=
  Nat.pow_dvd_pow 2 (Nat.le_trans (Nat.sub_le _ _) h)

/-- A quotient below a power of two is not rounded beyond it. -/
theorem nearest_le_pow {k : Nat} (hk : Nat.log2 (a / den) ≤ k) (h : a / den < Nat.pow 2 k) :
    nearest a den ≤ Nat.pow 2 k := by
  obtain ⟨c, hc⟩ := spacing_dvd hk
  have hgap := spacing_pos (a / den)
  -- counted in steps of the spacing, the quotient is below the power
  have hquotient : a / (den * spacing (a / den)) < c := by
    rw [← Nat.div_div_eq_div_mul, Nat.div_lt_iff_lt_mul hgap, Nat.mul_comm, ← hc]
    exact h
  unfold nearest
  dsimp only
  rw [hc]
  exact Nat.mul_le_mul_left _ (Nat.le_trans (roundDiv_le_div_add_one _ _) hquotient)

/-- A quotient is not rounded below the power of two that it reaches. -/
theorem pow_le_nearest (h : a / den ≠ 0) :
    Nat.pow 2 (Nat.log2 (a / den)) ≤ nearest a den := by
  obtain ⟨c, hc⟩ := spacing_dvd (Nat.le_refl (Nat.log2 (a / den)))
  have hgap := spacing_pos (a / den)
  have hquotient : c ≤ a / (den * spacing (a / den)) := by
    rw [← Nat.div_div_eq_div_mul, Nat.le_div_iff_mul_le hgap, Nat.mul_comm, ← hc]
    exact Nat.log2_self_le h
  unfold nearest
  dsimp only
  rw [hc]
  exact Nat.mul_le_mul_left _ (Nat.le_trans hquotient (div_le_roundDiv _ _))

/-- A greater quotient is not rounded to a smaller float. -/
theorem nearest_mono (h : a ≤ b) (den : Nat) : nearest a den ≤ nearest b den := by
  have hquotient : a / den ≤ b / den := Nat.div_le_div_right h
  have hlog : Nat.log2 (a / den) ≤ Nat.log2 (b / den) := by
    rw [Nat.log2_eq_log_two, Nat.log2_eq_log_two]
    exact Nat.log_mono_right hquotient
  rcases hlog.lt_or_eq with hlt | heq
  · -- a power of two lies between the quotients
    have hpow : Nat.pow 2 (Nat.log2 (a / den) + 1) ≤ Nat.pow 2 (Nat.log2 (b / den)) :=
      Nat.pow_le_pow_right (by decide) hlt
    have hb : b / den ≠ 0 := by
      intro hzero
      rw [hzero] at hlt
      exact absurd hlt (Nat.not_lt_zero _)
    calc nearest a den ≤ Nat.pow 2 (Nat.log2 (a / den) + 1) :=
          nearest_le_pow (Nat.le_succ _) Nat.lt_log2_self
      _ ≤ Nat.pow 2 (Nat.log2 (b / den)) := hpow
      _ ≤ nearest b den := pow_le_nearest hb
  · -- the floats about both quotients are spaced alike
    have hspacing : spacing (a / den) = spacing (b / den) := by rw [spacing, spacing, heq]
    unfold nearest
    dsimp only
    rw [hspacing]
    exact Nat.mul_le_mul_left _ (roundDiv_mono h _)

/-! ## Integers rounded to floats -/

theorem one_pos : 0 < one := by decide +kernel

/-- The magnitude of an integer that is not zero is not rounded to zero. -/
theorem nearest_pos {n : Nat} (h : 0 < n) : 0 < nearest (n * one) 1 := by
  have hmagnitude : n * one / 1 ≠ 0 := by
    rw [Nat.div_one]
    exact (Nat.mul_pos h one_pos).ne'
  exact Nat.lt_of_lt_of_le (Nat.pow_pos (by decide)) (pow_le_nearest hmagnitude)

theorem value_ofInt_of_neg {n : Int} (h : n < 0) :
    (ofInt n).value = -(nearest (n.natAbs * one) 1 : Nat) := by
  rw [ofInt, value, if_pos (decide_eq_true h)]

theorem value_ofInt_of_nonneg {n : Int} (h : 0 ≤ n) :
    (ofInt n).value = (nearest (n.natAbs * one) 1 : Nat) := by
  rw [ofInt, value, if_neg (by simpa using h)]

theorem value_ofInt_neg {n : Int} (h : n < 0) : (ofInt n).value < 0 := by
  have hpos : 0 < nearest (n.natAbs * one) 1 := nearest_pos (by omega)
  rw [value_ofInt_of_neg h]
  omega

theorem value_ofInt_pos {n : Int} (h : 0 < n) : 0 < (ofInt n).value := by
  have hpos : 0 < nearest (n.natAbs * one) 1 := nearest_pos (by omega)
  rw [value_ofInt_of_nonneg h.le]
  omega

/-- A greater integer is not rounded to a smaller float. -/
theorem value_ofInt_mono {m n : Int} (h : m ≤ n) : (ofInt m).value ≤ (ofInt n).value := by
  have hmagnitudes : ∀ {i j : Nat}, i ≤ j → nearest (i * one) 1 ≤ nearest (j * one) 1 :=
    fun hij => nearest_mono (Nat.mul_le_mul_right _ hij) 1
  rcases lt_or_ge m 0 with hm | hm <;> rcases lt_or_ge n 0 with hn | hn
  · have habs : nearest (n.natAbs * one) 1 ≤ nearest (m.natAbs * one) 1 :=
      hmagnitudes (by omega)
    rw [value_ofInt_of_neg hm, value_ofInt_of_neg hn]
    omega
  · have hneg := value_ofInt_neg hm
    rw [value_ofInt_of_nonneg hn]
    omega
  · omega
  · have habs : nearest (m.natAbs * one) 1 ≤ nearest (n.natAbs * one) 1 :=
      hmagnitudes (by omega)
    rw [value_ofInt_of_nonneg hm, value_ofInt_of_nonneg hn]
    omega

/-! ## What is a float already -/

/-- The magnitude is that of a finite float: a multiple of its spacing, and below the limit. -/
structure Representable (x : Binary64) : Prop where
  dvd : spacing x.units ∣ x.units
  lt_limit : x.units < limit

theorem roundDiv_of_dvd (h : den ∣ a) (hpos : 0 < den) : roundDiv a den = a / den := by
  have hmod : 2 * (a % den) < den := by
    rw [Nat.mod_eq_zero_of_dvd h]
    exact hpos
  unfold roundDiv
  exact if_pos hmod

/-- The magnitude of a float is not rounded. -/
theorem nearest_of_dvd (h : spacing a ∣ a) : nearest a 1 = a := by
  unfold nearest
  dsimp only
  rw [Nat.div_one, Nat.one_mul, roundDiv_of_dvd h (spacing_pos a)]
  exact Nat.mul_div_cancel' h

/-- An integer that is the value of a float is rounded to that value. -/
theorem value_ofInt_of_representable {n : Int} {x : Binary64} (hx : x.Representable)
    (h : x.value = n * one) : (ofInt n).value = x.value := by
  have hunits : x.units = n.natAbs * one := by
    have habs : x.value.natAbs = x.units := by
      unfold value
      split <;> omega
    rw [← habs, h, Int.natAbs_mul, Int.natAbs_natCast]
  have hnearest : nearest (n.natAbs * one) 1 = n.natAbs * one := by
    rw [← hunits]
    exact nearest_of_dvd hx.dvd
  rcases lt_or_ge n 0 with hn | hn
  · rw [value_ofInt_of_neg hn, hnearest, h, Int.natCast_mul, Int.ofNat_natAbs_of_nonpos hn.le,
      Int.neg_mul, Int.neg_neg]
  · rw [value_ofInt_of_nonneg hn, hnearest, h, Int.natCast_mul, Int.natAbs_of_nonneg hn]

end Chronicle.Binary64
