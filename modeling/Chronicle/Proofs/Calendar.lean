import Chronicle.Timestamp.Calendar
import Mathlib.Algebra.Ring.Nat
import Mathlib.Data.List.Basic

set_option autoImplicit false

/-!
# Days and dates

The date of a day and the day of a date undo each other: every day lies in its year
(`yearOf_spec`), and its month and day of the month lead back to it (`dayOf?_dateOf`). Days are in
the order of their dates (`dateOf_lt_iff`).
-/

namespace Chronicle.Calendar

/-- A day lies between the first of its year and that of the next one. -/
theorem yearOf_spec (day : Int) :
    daysBeforeYear (yearOf day) ≤ day ∧ day < daysBeforeYear (yearOf day + 1) := by
  unfold yearOf
  dsimp only
  -- 400 years have 146097 days, so the first guess is off by at most one year
  split
  · next hbefore =>
    rw [Int.sub_add_cancel]
    unfold daysBeforeYear at hbefore ⊢
    omega
  · next hstart =>
    unfold daysBeforeYear at hstart ⊢
    split
    · next hafter => omega
    · next hend => omega

/-- The days of a year are those of its months. -/
theorem daysBeforeYear_succ (year : Int) :
    daysBeforeYear (year + 1) = daysBeforeYear year + ((monthLengths year).sum : Nat) := by
  have hsum : (monthLengths year).sum = if isLeapYear year then 366 else 365 := by
    unfold monthLengths
    cases isLeapYear year <;> rfl
  rw [hsum]
  cases hleap : isLeapYear year with
  | true =>
      simp only [isLeapYear, Bool.and_eq_true, Bool.or_eq_true, beq_iff_eq, bne_iff_ne] at hleap
      unfold daysBeforeYear
      simp only [if_true]
      omega
  | false =>
      simp only [isLeapYear, Bool.and_eq_false_iff, Bool.or_eq_false_iff, beq_eq_false_iff_ne,
        bne_eq_false_iff_eq] at hleap
      unfold daysBeforeYear
      simp only [Bool.false_eq_true, if_false]
      omega

theorem foldl_add_eq_sum (ns : List Nat) (n : Nat) : ns.foldl Nat.add n = n + ns.sum := by
  induction ns generalizing n with
  | nil => rfl
  | cons m ns ih =>
      rw [List.foldl_cons, ih, List.sum_cons, ← Nat.add_assoc]
      rfl

/-- Where the days run out: in a month, on one of its days, with all months before it passed. -/
theorem monthDay_spec (lengths : List Nat) (month rest : Nat) (h : rest < lengths.sum) :
    ∃ i length day, monthDay lengths month rest = (month + i, day + 1) ∧
      lengths[i]? = some length ∧ day < length ∧ (lengths.take i).sum + day = rest := by
  induction lengths generalizing month rest with
  | nil => simp at h
  | cons length more ih =>
      rw [monthDay]
      by_cases hrest : rest < length
      · rw [if_pos hrest]
        exact ⟨0, length, rest, rfl, rfl, hrest, by simp⟩
      · rw [if_neg hrest]
        rw [List.sum_cons] at h
        obtain ⟨i, length', day, hmonth, hlength, hday, hsum⟩ :=
          ih (month + 1) (rest - length) (by omega)
        refine ⟨i + 1, length', day, ?_, hlength, hday, ?_⟩
        · rw [hmonth, Nat.add_assoc, Nat.add_comm 1 i]
        · rw [List.take_succ_cons, List.sum_cons]
          omega

theorem length_monthLengths (year : Int) : (monthLengths year).length = 12 := rfl

theorem le_of_mem_monthLengths {year : Int} {length : Nat} (h : length ∈ monthLengths year) :
    length ≤ 31 := by
  unfold monthLengths at h
  cases hleap : isLeapYear year <;> simp [hleap] at h <;> omega

/-- The day of a day's date is that day; its month and day of the month have two digits. -/
theorem dayOf?_dateOf (day : Int) :
    ∃ month dayOfMonth, dateOf day = (yearOf day, month, dayOfMonth) ∧
      dayOf? (yearOf day) month dayOfMonth = some day ∧ month < 100 ∧ dayOfMonth < 100 := by
  obtain ⟨hstart, hend⟩ := yearOf_spec day
  rw [daysBeforeYear_succ] at hend
  obtain ⟨i, length, rest, hmonth, hlength, hrest, hsum⟩ :=
    monthDay_spec (monthLengths (yearOf day)) 1 (day - daysBeforeYear (yearOf day)).toNat
      (by omega)
  have hlong := le_of_mem_monthLengths (List.mem_of_getElem? hlength)
  have hyear : i < 12 := by
    rw [← length_monthLengths (yearOf day)]
    exact (List.getElem?_eq_some_iff.mp hlength).1
  refine ⟨1 + i, rest + 1, ?_, ?_, by omega, by omega⟩
  · unfold dateOf
    dsimp only
    rw [hmonth]
  · have hpassed : daysBeforeMonth (yearOf day) (1 + i) =
        ((monthLengths (yearOf day)).take i).sum := by
      rw [daysBeforeMonth, foldl_add_eq_sum, Nat.add_sub_cancel_left, Nat.zero_add]
    rw [dayOf?, Nat.add_sub_cancel_left, hlength, hpassed]
    dsimp only
    rw [if_pos (by omega), Nat.add_sub_cancel]
    congr 1
    omega

/-! ## Dates in order -/

theorem daysBeforeYear_mono {year later : Int} (h : year ≤ later) :
    daysBeforeYear year ≤ daysBeforeYear later := by
  unfold daysBeforeYear
  omega

/-- A day of an earlier year comes before one of a later year. -/
theorem lt_of_yearOf_lt {day later : Int} (h : yearOf day < yearOf later) : day < later := by
  obtain ⟨-, hend⟩ := yearOf_spec day
  obtain ⟨hstart, -⟩ := yearOf_spec later
  have hyears := daysBeforeYear_mono (Int.add_one_le_of_lt h)
  omega

/-- A day that is not before the first of a year, and is before the first of another one, lies in
the years from the one to before the other. -/
theorem yearOf_bounds {day first last : Int} (hfirst : daysBeforeYear first ≤ day)
    (hlast : day < daysBeforeYear last) : first ≤ yearOf day ∧ yearOf day < last := by
  obtain ⟨hstart, hend⟩ := yearOf_spec day
  constructor
  · by_contra hbefore
    have hyears := daysBeforeYear_mono (Int.add_one_le_of_lt (Int.not_le.mp hbefore))
    omega
  · by_contra hafter
    have hyears := daysBeforeYear_mono (Int.not_lt.mp hafter)
    omega

/-- The day of a date lies in the year of the date. -/
theorem dayOf?_bounds {year day : Int} {month dayOfMonth : Nat}
    (h : dayOf? year month dayOfMonth = some day) :
    daysBeforeYear year ≤ day ∧ day < daysBeforeYear (year + 1) := by
  rw [dayOf?] at h
  split at h
  · next length hlength =>
    obtain ⟨hdate, h⟩ := Option.ite_none_right_eq_some.mp h
    have hpassed : daysBeforeMonth year month + length ≤ (monthLengths year).sum := by
      obtain ⟨hmonth, hget⟩ := List.getElem?_eq_some_iff.mp hlength
      have hsplit := congrArg List.sum (List.take_append_drop (month - 1) (monthLengths year))
      rw [List.sum_append, List.drop_eq_getElem_cons hmonth, List.sum_cons, hget] at hsplit
      rw [daysBeforeMonth, foldl_add_eq_sum, Nat.zero_add]
      omega
    rw [daysBeforeYear_succ]
    obtain rfl := Option.some.inj h
    omega
  · cases h

theorem le_monthDay (lengths : List Nat) (month rest : Nat) :
    month ≤ (monthDay lengths month rest).1 := by
  induction lengths generalizing month rest with
  | nil => exact Nat.le_refl _
  | cons length more ih =>
      rw [monthDay]
      split
      · exact Nat.le_refl _
      · exact Nat.le_of_succ_le (ih (month + 1) _)

/-- Days of one year are in the order of their months, and within a month in that of its days. -/
theorem monthDay_lt_iff (lengths : List Nat) (month rest later : Nat) :
    rest < later ↔
      (monthDay lengths month rest).1 < (monthDay lengths month later).1 ∨
        (monthDay lengths month rest).1 = (monthDay lengths month later).1 ∧
          (monthDay lengths month rest).2 < (monthDay lengths month later).2 := by
  induction lengths generalizing month rest later with
  | nil => simp [monthDay]
  | cons length more ih =>
      have hrest := le_monthDay more (month + 1) (rest - length)
      have hlater := le_monthDay more (month + 1) (later - length)
      have hstep := ih (month + 1) (rest - length) (later - length)
      rw [monthDay, monthDay]
      by_cases hr : rest < length
      · by_cases hl : later < length
        · rw [if_pos hr, if_pos hl]
          simp
        · rw [if_pos hr, if_neg hl]
          dsimp only
          omega
      · by_cases hl : later < length
        · rw [if_neg hr, if_pos hl]
          dsimp only
          omega
        · rw [if_neg hr, if_neg hl, ← hstep]
          omega

/-- Days are in the order of their dates. -/
theorem dateOf_lt_iff (day later : Int) :
    day < later ↔
      (dateOf day).1 < (dateOf later).1 ∨
        (dateOf day).1 = (dateOf later).1 ∧
          ((dateOf day).2.1 < (dateOf later).2.1 ∨
            (dateOf day).2.1 = (dateOf later).2.1 ∧ (dateOf day).2.2 < (dateOf later).2.2) := by
  show day < later ↔ yearOf day < yearOf later ∨ yearOf day = yearOf later ∧ _
  rcases Int.lt_trichotomy (yearOf day) (yearOf later) with hyear | hyear | hyear
  · exact iff_of_true (lt_of_yearOf_lt hyear) (Or.inl hyear)
  · obtain ⟨hday, -⟩ := yearOf_spec day
    obtain ⟨hlater, -⟩ := yearOf_spec later
    unfold dateOf
    dsimp only
    rw [← hyear] at hlater ⊢
    rw [← monthDay_lt_iff]
    omega
  · have hlt := lt_of_yearOf_lt hyear
    omega

end Chronicle.Calendar
