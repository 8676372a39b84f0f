import Chronicle.Proofs.Calendar
import Chronicle.Proofs.Numerals
import Chronicle.Timestamp.Text

set_option autoImplicit false

/-!
# Timestamps are read back from their texts

The text of an instant in a year of four digits is read as that instant (`parse_text`), leap
seconds included that follow the last second of a minute. An instant can also lie in a leap second
after any other second; its text is that of the second that comes next, and is read as such
(`parse_text_of_not_leap`). There is no such instant among those that were read
(`leap_of_parse`), nor a microsecond after one of them (`leap_next`).
-/

namespace Chronicle.Timestamp

open Text

/-! ## Parts of a text -/

theorem twoDigits?_paddedDigits {n : Nat} (h : n < 100) :
    ∃ a b, paddedDigits 2 n = [a, b] ∧ twoDigits? a b = some n := by
  obtain ⟨htens, htensValue⟩ := isDigit_digit (Nat.mod_lt (n / 10) (by decide : 0 < 10))
  obtain ⟨hones, honesValue⟩ := isDigit_digit (Nat.mod_lt n (by decide : 0 < 10))
  refine ⟨_, _, rfl, ?_⟩
  rw [twoDigits?, htens, hones, htensValue, honesValue]
  simp only [Bool.and_self, if_true, Option.some.injEq]
  omega

theorem paddedDigits_four (n : Nat) :
    paddedDigits 4 n = paddedDigits 2 (n / 100) ++ paddedDigits 2 n := by
  have hdiv : n / 10 / 10 = n / 100 := by rw [Nat.div_div_eq_div_mul]
  show ((paddedDigits 2 (n / 10 / 10) ++ [_]) ++ [_]) = _
  rw [hdiv, List.append_assoc]
  rfl

theorem paddedDigits_two_mod (n : Nat) : paddedDigits 2 (n % 100) = paddedDigits 2 n := by
  have htens : n % 100 / 10 % 10 = n / 10 % 10 := by omega
  have hones : n % 100 % 10 = n % 10 := by omega
  show [Char.ofNat (n % 100 / 10 % 10 + 48), Char.ofNat (n % 100 % 10 + 48)] = _
  rw [htens, hones]
  rfl

/-- A date of four, two and two digits is read as its day. -/
theorem readDate_spelled {year month dayOfMonth : Nat} {day : Int} (hyear : year < 10000)
    (hmonth : month < 100) (hdayOfMonth : dayOfMonth < 100)
    (hday : Calendar.dayOf? year month dayOfMonth = some day) (rest : List Char) :
    readDate (paddedDigits 4 year ++ '-' :: (paddedDigits 2 month ++
      '-' :: (paddedDigits 2 dayOfMonth ++ rest))) = .ok (day, rest) := by
  obtain ⟨a, b, hcentury, hab⟩ := twoDigits?_paddedDigits (n := year / 100) (by omega)
  obtain ⟨c, d, hshort, hcd⟩ := twoDigits?_paddedDigits (n := year % 100) (by omega)
  obtain ⟨e, f, hm, hef⟩ := twoDigits?_paddedDigits hmonth
  obtain ⟨g, i, hd, hgi⟩ := twoDigits?_paddedDigits hdayOfMonth
  have hwhole : year / 100 * 100 + year % 100 = year := by omega
  rw [paddedDigits_four, ← paddedDigits_two_mod year, hcentury, hshort, hm, hd]
  simp only [List.cons_append, List.nil_append, readDate, hab, hcd, hef, hgi, hwhole, hday]

/-- A clock time of two digits each is read as its parts. -/
theorem readClock_spelled {hour minute second : Nat} (hhour : hour < 100) (hminute : minute < 100)
    (hsecond : second < 100) (rest : List Char) :
    readClock ('T' :: (paddedDigits 2 hour ++ ':' :: (paddedDigits 2 minute ++
      ':' :: (paddedDigits 2 second ++ rest)))) = .ok ((hour, minute, second), rest) := by
  obtain ⟨a, b, hh, hab⟩ := twoDigits?_paddedDigits hhour
  obtain ⟨c, d, hm, hcd⟩ := twoDigits?_paddedDigits hminute
  obtain ⟨e, f, hs, hef⟩ := twoDigits?_paddedDigits hsecond
  rw [hh, hm, hs]
  simp only [List.cons_append, List.nil_append, readClock, true_or, if_true, hab, hcd, hef]

/-- Six decimals are read as the microseconds. -/
theorem readFraction_spelled {micro : Nat} (h : micro < 1000000) :
    readFraction ('.' :: (paddedDigits 6 micro ++ ['Z'])) = .ok (micro, ['Z']) := by
  have hlength := length_paddedDigits 6 micro
  have hdigits : ∀ c ∈ paddedDigits 6 micro, isDigit c = true :=
    fun c hc => isDigit_of_mem_paddedDigits hc
  have htake : (paddedDigits 6 micro ++ ['Z']).takeWhile isDigit = paddedDigits 6 micro := by
    rw [List.takeWhile_append_of_pos hdigits]
    exact List.append_nil _
  have hdrop : (paddedDigits 6 micro ++ ['Z']).dropWhile isDigit = ['Z'] := by
    rw [List.dropWhile_append_of_pos hdigits]
    rfl
  have hsix : (paddedDigits 6 micro ++ List.replicate 6 '0').take 6 = paddedDigits 6 micro :=
    List.take_left' hlength
  have hnil : (paddedDigits 6 micro).isEmpty = false := rfl
  have hvalue : digitsValue (paddedDigits 6 micro) = micro := by
    rw [digitsValue_paddedDigits]
    exact Nat.mod_eq_of_lt h
  rw [readFraction]
  simp only [htake, hdrop, hsix, hnil, Bool.false_eq_true, if_false, hvalue]

theorem length_le_byteCount (cs : List Char) : cs.length ≤ byteCount cs := by
  induction cs with
  | nil => exact Nat.le_refl _
  | cons c cs ih =>
      have hsize := c.utf8Size_pos
      have hcons : byteCount (c :: cs) = c.utf8Size + byteCount cs := rfl
      rw [List.length_cons, hcons]
      omega

/-! ## Instants -/

theorem ofSecond_second_micro (t : Timestamp) : ofSecond t.second t.micro = t := by
  apply ext_slot
  show t.slot / 2000000 * 2000000 + ((t.slot % 2000000).toNat : Int) = t.slot
  omega

theorem second_ofSecond (second : Int) {micro : Nat} (h : micro < 2000000) :
    (ofSecond second micro).second = second := by
  show (second * 2000000 + (micro : Int)) / 2000000 = second
  omega

theorem micro_ofSecond (second : Int) {micro : Nat} (h : micro < 2000000) :
    (ofSecond second micro).micro = micro := by
  show ((second * 2000000 + (micro : Int)) % 2000000).toNat = micro
  omega

theorem micro_lt (t : Timestamp) : t.micro < 2000000 := by
  show (t.slot % 2000000).toNat < 2000000
  omega

/-- The instant lies in a leap second only if that follows the last second of a minute. -/
def HasLeap (t : Timestamp) : Prop := 1000000 ≤ t.micro → t.second % 60 = 59

instance (t : Timestamp) : Decidable t.HasLeap :=
  inferInstanceAs (Decidable (1000000 ≤ t.micro → t.second % 60 = 59))

/-- The year of an instant. -/
def year (t : Timestamp) : Int := Calendar.yearOf (t.second / secondsPerDay)

/-- The seconds since midnight. -/
def clock (t : Timestamp) : Nat := (t.second % secondsPerDay).toNat

/-- The second of the minute as it is written; that of a leap second is one more. -/
def shownSecond (t : Timestamp) : Nat :=
  if 1000000 ≤ t.micro then t.clock % 60 + 1 else t.clock % 60

theorem clock_lt (t : Timestamp) : t.clock < 86400 := by
  unfold clock secondsPerDay
  omega

theorem shownSecond_le (t : Timestamp) : t.shownSecond ≤ 60 := by
  unfold shownSecond
  split <;> omega

/-- The month of an instant. -/
def month (t : Timestamp) : Nat := (Calendar.dateOf (t.second / secondsPerDay)).2.1

/-- The day of the month of an instant. -/
def dayOfMonth (t : Timestamp) : Nat := (Calendar.dateOf (t.second / secondsPerDay)).2.2

/-- The parts of the text of an instant, from left to right. -/
theorem spell_eq (t : Timestamp) :
    t.spell =
      spellYear t.year ++ '-' :: (paddedDigits 2 t.month ++
        '-' :: (paddedDigits 2 t.dayOfMonth ++ 'T' :: (paddedDigits 2 (t.clock / 3600) ++
          ':' :: (paddedDigits 2 (t.clock / 60 % 60) ++ ':' :: (paddedDigits 2 t.shownSecond ++
            '.' :: (paddedDigits 6 (t.micro % 1000000) ++ ['Z'])))))) := by
  have hdate : Calendar.dateOf (t.second / secondsPerDay) = (t.year, t.month, t.dayOfMonth) := rfl
  simp only [spell, spellSeconds, hdate, List.append_assoc, List.cons_append, shownSecond, clock]

/-- The date of an instant leads back to its day. -/
theorem dayOf?_date (t : Timestamp) :
    Calendar.dayOf? t.year t.month t.dayOfMonth = some (t.second / secondsPerDay) ∧
      t.month < 100 ∧ t.dayOfMonth < 100 := by
  obtain ⟨month, dayOfMonth, hdate, hday, hmonth, hdayOfMonth⟩ :=
    Calendar.dayOf?_dateOf (t.second / secondsPerDay)
  have hm : t.month = month := congrArg (fun date => date.2.1) hdate
  have hd : t.dayOfMonth = dayOfMonth := congrArg (fun date => date.2.2) hdate
  rw [hm, hd]
  exact ⟨hday, hmonth, hdayOfMonth⟩

theorem clock_mod (t : Timestamp) : ((t.clock % 60 : Nat) : Int) = t.second % 60 := by
  unfold clock secondsPerDay
  omega

/-- The day, the hour and the minute of an instant lead to the start of its minute. -/
theorem ofLocal_minute (t : Timestamp) (second micro : Nat) :
    ofLocal (t.second / secondsPerDay) (t.clock / 3600) (t.clock / 60 % 60) second micro 0 =
      if second = 60 then ofSecond (t.second / 60 * 60 + 59) (micro + 1000000)
      else ofSecond (t.second / 60 * 60 + second) micro := by
  have hday := Int.mul_ediv_add_emod t.second secondsPerDay
  have hclock : (t.clock : Int) = t.second % secondsPerDay :=
    Int.toNat_of_nonneg (Int.emod_nonneg _ (by decide))
  have hstart : t.second / secondsPerDay * secondsPerDay +
      ((t.clock / 3600 * 60 + t.clock / 60 % 60) * 60 : Nat) - 0 * 60 = t.second / 60 * 60 := by
    unfold secondsPerDay at hday hclock ⊢
    omega
  unfold ofLocal
  dsimp only
  rw [hstart]

/-- The parts of an instant make up that instant. -/
theorem ofLocal_parts {t : Timestamp} (hleap : t.HasLeap) :
    ofLocal (t.second / secondsPerDay) (t.clock / 3600) (t.clock / 60 % 60) t.shownSecond
      (t.micro % 1000000) 0 = t := by
  have hmicro := t.micro_lt
  have hclock := t.clock_mod
  rw [ofLocal_minute, shownSecond]
  by_cases hupper : 1000000 ≤ t.micro
  · have hlast := hleap hupper
    rw [if_pos hupper, if_pos (by omega)]
    refine Eq.trans ?_ t.ofSecond_second_micro
    congr 1
    · omega
    · omega
  · rw [if_neg hupper, if_neg (by omega)]
    refine Eq.trans ?_ t.ofSecond_second_micro
    congr 1
    · omega
    · omega

/-- The parts of an instant in any other leap second make up the second that follows. -/
theorem ofLocal_parts_of_not_leap {t : Timestamp} (hleap : ¬t.HasLeap) :
    ofLocal (t.second / secondsPerDay) (t.clock / 3600) (t.clock / 60 % 60) t.shownSecond
      (t.micro % 1000000) 0 = ofSecond (t.second + 1) (t.micro - 1000000) := by
  obtain ⟨hupper, hlast⟩ : 1000000 ≤ t.micro ∧ t.second % 60 ≠ 59 := Classical.not_imp.mp hleap
  have hmicro := t.micro_lt
  have hclock := t.clock_mod
  have hrest : t.micro % 1000000 = t.micro - 1000000 := by omega
  rw [ofLocal_minute, shownSecond, if_pos hupper, if_neg (by omega), hrest]
  apply congrArg (ofSecond · (t.micro - 1000000))
  omega

/-- The text of an instant in a year of four digits is read as the instant with its parts. -/
theorem parse_text_eq_ofLocal {t : Timestamp} (hyear : 0 ≤ t.year ∧ t.year ≤ 9999) :
    parse t.text = .ok (ofLocal (t.second / secondsPerDay) (t.clock / 3600) (t.clock / 60 % 60)
      t.shownSecond (t.micro % 1000000) 0) := by
  obtain ⟨hday, hmonth, hdayOfMonth⟩ := t.dayOf?_date
  have hspell := t.spell_eq
  rw [spellYear, if_pos hyear] at hspell
  have hclock := t.clock_lt
  have hsecond := t.shownSecond_le
  have hbytes : ¬byteCount t.spell < 19 := by
    have hlength := length_le_byteCount t.spell
    have hcount : t.spell.length = 27 := by
      rw [hspell]
      simp [length_paddedDigits]
    omega
  have hyearNat : ((t.year.toNat : Nat) : Int) = t.year := Int.toNat_of_nonneg hyear.1
  have hday' : Calendar.dayOf? (t.year.toNat : Nat) t.month t.dayOfMonth =
      some (t.second / secondsPerDay) := by
    rw [hyearNat]
    exact hday
  have hrange : ¬(24 ≤ t.clock / 3600 ∨ 60 ≤ t.clock / 60 % 60 ∨ 60 < t.shownSecond) := by
    omega
  rw [parse, text, String.toList_ofList, if_neg hbytes, hspell]
  simp only [bind, Except.bind, pure, Except.pure]
  -- each part is read where the one before it ends
  rw [readDate_spelled (by omega) hmonth hdayOfMonth hday']
  dsimp only
  rw [readClock_spelled (by omega) (by omega) (by omega)]
  dsimp only
  rw [readFraction_spelled (Nat.mod_lt _ (by decide))]
  dsimp only
  rw [if_neg hrange]
  rfl

/-- The text of an instant in a year of four digits is read as that instant. -/
theorem parse_text {t : Timestamp} (hyear : 0 ≤ t.year ∧ t.year ≤ 9999) (hleap : t.HasLeap) :
    parse t.text = .ok t := by
  rw [parse_text_eq_ofLocal hyear, ofLocal_parts hleap]

/-- A leap second that does not follow the last second of a minute is read as the second after
it. -/
theorem parse_text_of_not_leap {t : Timestamp} (hyear : 0 ≤ t.year ∧ t.year ≤ 9999)
    (hleap : ¬t.HasLeap) : parse t.text = .ok (ofSecond (t.second + 1) (t.micro - 1000000)) := by
  rw [parse_text_eq_ofLocal hyear, ofLocal_parts_of_not_leap hleap]

/-! ## Where leap seconds are -/

theorem micro_lt_of_readFraction {cs rest : List Char} {micro : Nat}
    (h : readFraction cs = .ok (micro, rest)) : micro < 1000000 := by
  unfold readFraction at h
  split at h
  · next ds =>
    dsimp only at h
    split at h
    · cases h
    · obtain ⟨rfl, -⟩ := Prod.mk.inj (Except.ok.inj h)
      -- what is cut to six characters are digits, with zeros behind them
      have hdigits : ∀ d ∈ (ds.takeWhile isDigit ++ List.replicate 6 '0').take 6,
          isDigit d = true := by
        intro d hd
        rcases List.mem_append.mp (List.mem_of_mem_take hd) with hd | hd
        · exact List.all_eq_true.mp List.all_takeWhile d hd
        · rw [List.eq_of_mem_replicate hd]
          rfl
      have hlength : ((ds.takeWhile isDigit ++ List.replicate 6 '0').take 6).length = 6 := by
        simp
      have hlt := digitsValue_lt hdigits
      rwa [hlength] at hlt
  · obtain ⟨rfl, -⟩ := Prod.mk.inj (Except.ok.inj h)
    decide

theorem leap_ofLocal (day : Int) (hour minute second : Nat) {micro : Nat} (offset : Int)
    (hmicro : micro < 1000000) : (ofLocal day hour minute second micro offset).HasLeap := by
  intro hupper
  unfold ofLocal secondsPerDay at hupper ⊢
  dsimp only at hupper ⊢
  by_cases hlast : second = 60
  · rw [if_pos hlast, second_ofSecond _ (by omega)]
    omega
  · rw [if_neg hlast, micro_ofSecond _ (by omega)] at hupper
    omega

/-- A timestamp that was read is made of parts in their ranges. -/
theorem ofLocal_of_parse {text : String} {t : Timestamp} (h : parse text = .ok t) :
    ∃ day hour minute second micro offset, t = ofLocal day hour minute second micro offset ∧
      (∃ cs rest, readDate cs = .ok (day, rest)) ∧ hour < 24 ∧ minute < 60 ∧ second ≤ 60 ∧
        micro < 1000000 ∧ offset.natAbs < 24 * 60 := by
  rw [parse] at h
  simp only [bind, Except.bind, pure, Except.pure] at h
  split at h
  · cases h
  split at h
  · cases h
  next date hdate =>
  split at h
  · cases h
  next clock hclock =>
  split at h
  · cases h
  next fraction hfraction =>
  split at h
  · cases h
  next hrange =>
  split at h
  · cases h
  next offset hoffset =>
  split at h
  · cases h
  split at h
  · cases h
  next hshift =>
  rw [not_or, not_or, Nat.not_le, Nat.not_le, Nat.not_lt] at hrange
  obtain ⟨hhour, hminute, hsecond⟩ := hrange
  exact ⟨_, _, _, _, _, _, (Except.ok.inj h).symm, ⟨_, _, hdate⟩, hhour, hminute, hsecond,
    micro_lt_of_readFraction hfraction, Nat.not_le.mp hshift⟩

/-- A timestamp that was read is in a leap second only after the last second of a minute. -/
theorem leap_of_parse {text : String} {t : Timestamp} (h : parse text = .ok t) : t.HasLeap := by
  obtain ⟨_, _, _, _, _, _, rfl, -, -, -, -, hmicro, -⟩ := ofLocal_of_parse h
  exact leap_ofLocal _ _ _ _ _ hmicro

theorem leap_next {t : Timestamp} (h : t.HasLeap) : t.next.HasLeap := by
  intro hupper
  have hmicro := t.micro_lt
  unfold next at hupper ⊢
  split at hupper
  · rw [micro_ofSecond _ (by decide)] at hupper
    cases hupper
  · next hinside =>
    rw [not_or] at hinside
    rw [if_neg (by rw [not_or]; exact hinside)]
    -- one more slot stays within the second
    have hslot : (⟨t.slot + 1⟩ : Timestamp) = ofSecond t.second (t.micro + 1) := by
      rw [← congrArg slot t.ofSecond_second_micro]
      apply ext_slot
      show t.second * slotsPerSecond + t.micro + 1 =
        t.second * slotsPerSecond + ((t.micro + 1 : Nat) : Int)
      omega
    rw [hslot, micro_ofSecond _ (by omega)] at hupper
    rw [hslot, second_ofSecond _ (by omega)]
    exact h (by omega)

end Chronicle.Timestamp
