import Chronicle.Proofs.TimestampText

set_option autoImplicit false

/-!
# Timestamps and their texts in order

Within the years of four digits a timestamp that was read is told by its text, and texts stand in
the order of the instants, byte by byte. An offset may move an instant out of these years, where
texts begin with a sign. Main statement: the text of a timestamp that was read is read as that
timestamp exactly in the years 0 to 9999, and two of them are in the order of their texts exactly
if both or neither lie beyond the year 9999 (`text_faithful_iff`).
-/

namespace Chronicle

namespace Text

/-- The bytes of a text. -/
def bytes (text : String) : List UInt8 := text.toUTF8.data.toList

theorem bytes_ofList (cs : List Char) :
    bytes (String.ofList cs) = cs.flatMap String.utf8EncodeChar := by
  show (String.ofList cs).toByteArray.data.toList = _
  rw [String.toByteArray_ofList, List.utf8Encode, List.toList_data_toByteArray]

theorem utf8EncodeChar_of_lt {c : Char} (h : c.toNat < 128) :
    String.utf8EncodeChar c = [UInt8.ofNat c.toNat] := if_pos (Nat.le_of_lt_succ h)

/-- The codes of ASCII characters are in the order of the characters. -/
theorem ofNat_toNat_lt_iff {c d : Char} (hc : c.toNat < 128) (hd : d.toNat < 128) :
    (UInt8.ofNat c.toNat < UInt8.ofNat d.toNat ↔ c < d) ∧
      (UInt8.ofNat c.toNat = UInt8.ofNat d.toNat ↔ c = d) := by
  rw [UInt8.lt_iff_toNat_lt, ← UInt8.toNat_inj, UInt8.toNat_ofNat', UInt8.toNat_ofNat',
    Nat.mod_eq_of_lt (by omega), Nat.mod_eq_of_lt (by omega), Char.toNat_inj]
  exact ⟨Iff.rfl, Iff.rfl⟩

/-- Texts of ASCII characters are in the order of their characters. -/
theorem bytes_lt_iff {cs ds : List Char} (hcs : ∀ c ∈ cs, c.toNat < 128)
    (hds : ∀ d ∈ ds, d.toNat < 128) :
    bytes (String.ofList cs) < bytes (String.ofList ds) ↔ cs < ds := by
  rw [bytes_ofList, bytes_ofList]
  induction cs generalizing ds with
  | nil =>
      cases ds with
      | nil => simp
      | cons d ds => simp [utf8EncodeChar_of_lt (hds d List.mem_cons_self)]
  | cons c cs ih =>
      obtain ⟨hc, hcs⟩ := List.forall_mem_cons.mp hcs
      cases ds with
      | nil => simp
      | cons d ds =>
          obtain ⟨hd, hds⟩ := List.forall_mem_cons.mp hds
          obtain ⟨hlt, heq⟩ := ofNat_toNat_lt_iff hc hd
          rw [List.flatMap_cons, List.flatMap_cons, utf8EncodeChar_of_lt hc,
            utf8EncodeChar_of_lt hd, List.singleton_append, List.singleton_append,
            List.cons_lt_cons_iff, List.cons_lt_cons_iff, hlt, heq, ih hcs hds]

theorem lt_of_isDigit {c : Char} (h : isDigit c = true) : '0' ≤ c ∧ c.toNat < 128 := by
  rw [isDigit, Bool.and_eq_true, decide_eq_true_eq, decide_eq_true_eq] at h
  have hnine : c.toNat ≤ '9'.toNat := h.2
  exact ⟨h.1, Nat.lt_of_le_of_lt hnine (by decide)⟩

end Text

namespace Timestamp

open Text

variable {a b : String} {t u : Timestamp}

/-! ## The years of timestamps that were read -/

theorem twoDigits?_lt {c d : Char} {n : Nat} (h : twoDigits? c d = some n) : n < 100 := by
  rw [twoDigits?, Option.ite_none_right_eq_some, Bool.and_eq_true, Option.some.injEq] at h
  obtain ⟨⟨hc, hd⟩, rfl⟩ := h
  have htens := digitValue_lt hc
  have hones := digitValue_lt hd
  omega

/-- A date that is read lies in a year of four digits. -/
theorem day_of_readDate {cs rest : List Char} {day : Int} (h : readDate cs = .ok (day, rest)) :
    Calendar.daysBeforeYear 0 ≤ day ∧ day < Calendar.daysBeforeYear 10000 := by
  unfold readDate at h
  split at h
  · split at h
    · next century year month dayOfMonth hcentury hyear _ _ =>
      split at h
      · next d hd =>
        obtain rfl := (Prod.mk.inj (Except.ok.inj h)).1
        obtain ⟨hstart, hend⟩ := Calendar.dayOf?_bounds hd
        have hhigh := twoDigits?_lt hcentury
        have hlow := twoDigits?_lt hyear
        have hfirst : Calendar.daysBeforeYear 0 ≤
            Calendar.daysBeforeYear (century * 100 + year : Nat) :=
          Calendar.daysBeforeYear_mono (by omega)
        have hlast : Calendar.daysBeforeYear ((century * 100 + year : Nat) + 1) ≤
            Calendar.daysBeforeYear 10000 :=
          Calendar.daysBeforeYear_mono (by omega)
        omega
      · cases h
    · cases h
  · cases h

/-- An offset moves an instant by less than a day, and so at most into the years next to those of
four digits. -/
theorem year_of_parse (h : parse a = .ok t) : -1 ≤ t.year ∧ t.year ≤ 10000 := by
  obtain ⟨day, hour, minute, second, micro, offset, rfl, ⟨cs, rest, hdate⟩, hhour, hminute,
    hsecond, hmicro, hoffset⟩ := ofLocal_of_parse h
  obtain ⟨hfirst, hlast⟩ := day_of_readDate hdate
  have hshifted : ∃ n : Int, (ofLocal day hour minute second micro offset).second = n ∧
      (day - 1) * secondsPerDay ≤ n ∧ n < (day + 2) * secondsPerDay := by
    unfold ofLocal secondsPerDay
    dsimp only
    split
    · rw [second_ofSecond _ (by omega)]
      exact ⟨_, rfl, by omega, by omega⟩
    · rw [second_ofSecond _ (by omega)]
      exact ⟨_, rfl, by omega, by omega⟩
  obtain ⟨n, hn, hlow, hhigh⟩ := hshifted
  unfold year
  rw [hn]
  have hdays : Calendar.daysBeforeYear (-1) ≤ n / secondsPerDay ∧
      n / secondsPerDay < Calendar.daysBeforeYear 10001 := by
    unfold secondsPerDay at *
    unfold Calendar.daysBeforeYear at *
    omega
  have hbounds := Calendar.yearOf_bounds hdays.1 hdays.2
  omega

/-! ## Texts that are not read -/

theorem readDate_of_not_isDigit {c : Char} (h : isDigit c = false) (cs : List Char) :
    readDate (c :: cs) = .error .invalid := by
  unfold readDate
  split
  · next hcs =>
    have htwo : ∀ d, twoDigits? c d = none := fun d => if_neg (by simp [h])
    obtain ⟨rfl, -⟩ := List.cons.inj hcs
    rw [htwo]
  · rfl

/-- The text of an instant beyond the years of four digits begins with a sign. -/
theorem spellYear_of_not (hyear : ¬(0 ≤ t.year ∧ t.year ≤ 9999)) :
    ∃ sign digits, isDigit sign = false ∧ spellYear t.year = sign :: digits := by
  rw [spellYear, if_neg hyear]
  split
  · exact ⟨_, _, by decide, rfl⟩
  · exact ⟨_, _, by decide, rfl⟩

/-- The text of an instant is read as the instant exactly in the years of four digits. -/
theorem parse_text_iff (hleap : t.HasLeap) :
    parse t.text = .ok t ↔ 0 ≤ t.year ∧ t.year ≤ 9999 := by
  refine ⟨fun h => ?_, fun hyear => parse_text hyear hleap⟩
  by_contra hyear
  obtain ⟨sign, digits, hsign, hspelled⟩ := spellYear_of_not hyear
  have hspell := t.spell_eq
  rw [hspelled, List.cons_append] at hspell
  rw [parse, text, String.toList_ofList, hspell, readDate_of_not_isDigit hsign] at h
  simp only [bind, Except.bind] at h
  split at h <;> cases h

/-! ## The order of instants -/

/-- The day of an instant. -/
def day (t : Timestamp) : Int := t.second / secondsPerDay

/-- Instants are in the order of their days, then of the seconds since midnight, then of the
microseconds. -/
theorem lt_iff_day (t u : Timestamp) :
    t < u ↔ t.day < u.day ∨ t.day = u.day ∧
      (t.clock < u.clock ∨ t.clock = u.clock ∧ t.micro < u.micro) := by
  show t.slot < u.slot ↔ _
  unfold day clock micro second secondsPerDay slotsPerSecond
  omega

/-- Within a day instants are in the order of what is written of their times. -/
theorem clock_lt_iff (ht : t.HasLeap) (hu : u.HasLeap) :
    (t.clock < u.clock ∨ t.clock = u.clock ∧ t.micro < u.micro) ↔
      t.clock / 3600 < u.clock / 3600 ∨ t.clock / 3600 = u.clock / 3600 ∧
        (t.clock / 60 % 60 < u.clock / 60 % 60 ∨ t.clock / 60 % 60 = u.clock / 60 % 60 ∧
          (t.shownSecond < u.shownSecond ∨ t.shownSecond = u.shownSecond ∧
            t.micro % 1000000 < u.micro % 1000000)) := by
  have hlast : ∀ v : Timestamp, v.HasLeap → 1000000 ≤ v.micro → v.clock % 60 = 59 := by
    intro v hv hupper
    have hsecond := hv hupper
    have hclock := v.clock_mod
    omega
  have htlast := hlast t ht
  have hulast := hlast u hu
  have htmicro := t.micro_lt
  have humicro := u.micro_lt
  -- a leap second is shown as one second more, and its microseconds from zero on
  have hshown : ∀ v : Timestamp, v.shownSecond * 1000000 + v.micro % 1000000 =
      v.clock % 60 * 1000000 + v.micro := by
    intro v
    have hmicro := v.micro_lt
    unfold shownSecond
    split <;> omega
  have htshown := hshown t
  have hushown := hshown u
  omega

/-- What is written of an instant behind its year. -/
def parts (t : Timestamp) : List Nat :=
  [t.month, t.dayOfMonth, t.clock / 3600, t.clock / 60 % 60, t.shownSecond, t.micro % 1000000]

theorem parts_lt_iff (t u : Timestamp) :
    t.parts < u.parts ↔
      t.month < u.month ∨ t.month = u.month ∧
        (t.dayOfMonth < u.dayOfMonth ∨ t.dayOfMonth = u.dayOfMonth ∧
          (t.clock / 3600 < u.clock / 3600 ∨ t.clock / 3600 = u.clock / 3600 ∧
            (t.clock / 60 % 60 < u.clock / 60 % 60 ∨ t.clock / 60 % 60 = u.clock / 60 % 60 ∧
              (t.shownSecond < u.shownSecond ∨ t.shownSecond = u.shownSecond ∧
                t.micro % 1000000 < u.micro % 1000000)))) := by
  simp only [parts, List.cons_lt_cons_iff, List.not_lt_nil, and_false, or_false]

/-- Instants are in the order of their years, and in one year in that of what is written of them
behind it. -/
theorem lt_iff_parts (ht : t.HasLeap) (hu : u.HasLeap) :
    t < u ↔ t.year < u.year ∨ t.year = u.year ∧ t.parts < u.parts := by
  have hdates : ∀ v w : Timestamp, v.day < w.day ↔ v.year < w.year ∨ v.year = w.year ∧
      (v.month < w.month ∨ v.month = w.month ∧ v.dayOfMonth < w.dayOfMonth) :=
    fun v w => Calendar.dateOf_lt_iff v.day w.day
  rw [lt_iff_day, clock_lt_iff ht hu, parts_lt_iff]
  have hbefore := hdates t u
  have hafter := hdates u t
  omega

/-! ## The order of texts -/

/-- The text of an instant behind its year. -/
def spellInYear (t : Timestamp) : List Char :=
  '-' :: (paddedDigits 2 t.month ++ '-' :: (paddedDigits 2 t.dayOfMonth ++
    'T' :: (paddedDigits 2 (t.clock / 3600) ++ ':' :: (paddedDigits 2 (t.clock / 60 % 60) ++
      ':' :: (paddedDigits 2 t.shownSecond ++
        '.' :: (paddedDigits 6 (t.micro % 1000000) ++ ['Z']))))))

theorem spell_eq_append (t : Timestamp) : t.spell = spellYear t.year ++ t.spellInYear := t.spell_eq

/-- Behind the year texts are in the order of what is written. -/
theorem spellInYear_lt_iff (t u : Timestamp) :
    t.spellInYear < u.spellInYear ↔ t.parts < u.parts := by
  obtain ⟨-, htmonth, htday⟩ := t.dayOf?_date
  obtain ⟨-, humonth, huday⟩ := u.dayOf?_date
  have htclock := t.clock_lt
  have huclock := u.clock_lt
  have htsecond := t.shownSecond_le
  have husecond := u.shownSecond_le
  have hmicro : ∀ v : Timestamp, v.micro % 1000000 < 10 ^ 6 := fun v => Nat.mod_lt _ (by decide)
  rw [parts_lt_iff, spellInYear, spellInYear,
    List.cons_lt_cons_self, paddedDigits_append_lt_iff htmonth humonth,
    List.cons_lt_cons_self, paddedDigits_append_lt_iff htday huday,
    List.cons_lt_cons_self, paddedDigits_append_lt_iff (by omega) (by omega),
    List.cons_lt_cons_self, paddedDigits_append_lt_iff (by omega) (by omega),
    List.cons_lt_cons_self, paddedDigits_append_lt_iff (by omega) (by omega),
    List.cons_lt_cons_self, paddedDigits_append_lt_iff (hmicro t) (hmicro u)]
  simp

theorem spellYear_of_four {year : Int} (h : 0 ≤ year ∧ year ≤ 9999) :
    spellYear year = paddedDigits 4 year.toNat := if_pos h

/-- Years of four digits begin with a digit, which is greater than either sign. -/
theorem spellYear_eq_cons {year : Int} (h : 0 ≤ year ∧ year ≤ 9999) :
    ∃ digit digits, spellYear year = digit :: digits ∧ '0' ≤ digit := by
  rw [spellYear_of_four h]
  cases hdigits : paddedDigits 4 year.toNat with
  | nil =>
      have hlength := length_paddedDigits 4 year.toNat
      rw [hdigits] at hlength
      cases hlength
  | cons digit digits =>
      have hmem : digit ∈ paddedDigits 4 year.toNat := hdigits ▸ List.mem_cons_self
      exact ⟨digit, digits, rfl, (lt_of_isDigit (isDigit_of_mem_paddedDigits hmem)).1⟩

theorem spellYear_before : spellYear (-1) = ['-', '0', '0', '0', '1'] := by decide

theorem spellYear_beyond : spellYear 10000 = ['+', '1', '0', '0', '0', '0'] := by decide

/-- The lesser of two characters decides, whatever follows. -/
theorem cons_lt_cons_of_lt {c d : Char} (h : c < d) (as bs : List Char) :
    c :: as < d :: bs ∧ ¬d :: bs < c :: as := by
  constructor
  · exact List.cons_lt_cons_iff.mpr (Or.inl h)
  · rw [List.cons_lt_cons_iff]
    rintro (hgt | ⟨rfl, -⟩)
    · exact Std.lt_irrefl (Std.lt_trans h hgt)
    · exact Std.lt_irrefl h

/-- Of two years the earlier is written first, unless the later is one of five digits: its text
comes before all others. -/
theorem spellYear_append_lt_iff {year later : Int} (h : year < later) (hfirst : -1 ≤ year)
    (hlast : later ≤ 10000) (as bs : List Char) :
    (spellYear year ++ as < spellYear later ++ bs ↔ later ≤ 9999) ∧
      (spellYear later ++ bs < spellYear year ++ as ↔ ¬later ≤ 9999) := by
  rcases Int.le_iff_lt_or_eq.mp hlast with hlater | rfl
  · -- neither year is beyond those of four digits
    suffices hdecides : spellYear year ++ as < spellYear later ++ bs ∧
        ¬spellYear later ++ bs < spellYear year ++ as by
      exact ⟨iff_of_true hdecides.1 (by omega), iff_of_false hdecides.2 (by omega)⟩
    have hfour : 0 ≤ later ∧ later ≤ 9999 := by omega
    rcases Int.le_iff_lt_or_eq.mp hfirst with hyear | rfl
    · rw [spellYear_of_four hfour, spellYear_of_four (by omega),
        paddedDigits_append_lt_iff (by omega) (by omega),
        paddedDigits_append_lt_iff (by omega) (by omega)]
      omega
    · obtain ⟨digit, digits, hdigits, hdigit⟩ := spellYear_eq_cons hfour
      rw [hdigits, spellYear_before]
      exact cons_lt_cons_of_lt (Std.lt_of_lt_of_le (by decide) hdigit) _ _
  · suffices hdecides : spellYear 10000 ++ bs < spellYear year ++ as ∧
        ¬spellYear year ++ as < spellYear 10000 ++ bs by
      exact ⟨iff_of_false hdecides.2 (by omega), iff_of_true hdecides.1 (by omega)⟩
    rw [spellYear_beyond]
    rcases Int.le_iff_lt_or_eq.mp hfirst with hyear | rfl
    · have hfour : 0 ≤ year ∧ year ≤ 9999 := by omega
      obtain ⟨digit, digits, hdigits, hdigit⟩ := spellYear_eq_cons hfour
      rw [hdigits]
      exact cons_lt_cons_of_lt (Std.lt_of_lt_of_le (by decide) hdigit) _ _
    · rw [spellYear_before]
      exact cons_lt_cons_of_lt (by decide) _ _

theorem ascii_of_isDigit {cs : List Char} (h : ∀ c ∈ cs, isDigit c = true) :
    ∀ c ∈ cs, c.toNat < 128 := fun c hc => (lt_of_isDigit (h c hc)).2

theorem ascii_paddedDigits (width n : Nat) : ∀ c ∈ paddedDigits width n, c.toNat < 128 :=
  ascii_of_isDigit fun _ hc => isDigit_of_mem_paddedDigits hc

theorem ascii_spellYear (year : Int) : ∀ c ∈ spellYear year, c.toNat < 128 := by
  rw [spellYear]
  split
  · exact ascii_paddedDigits 4 _
  · refine List.forall_mem_cons.mpr ⟨by split <;> decide, List.forall_mem_append.mpr ⟨?_, ?_⟩⟩
    · intro c hc
      rw [List.eq_of_mem_replicate hc]
      decide
    · exact ascii_of_isDigit fun _ hc => isDigit_of_mem_toDigits hc

/-- The text of an instant is written in ASCII characters. -/
theorem ascii_spell (t : Timestamp) : ∀ c ∈ t.spell, c.toNat < 128 := by
  rw [spell_eq]
  simp only [List.forall_mem_append, List.forall_mem_cons]
  exact ⟨ascii_spellYear _, by decide, ascii_paddedDigits _ _, by decide, ascii_paddedDigits _ _,
    by decide, ascii_paddedDigits _ _, by decide, ascii_paddedDigits _ _, by decide,
    ascii_paddedDigits _ _, by decide, ascii_paddedDigits _ _, by decide, List.forall_mem_nil _⟩

theorem append_lt_append_left_iff (xs as bs : List Char) : xs ++ as < xs ++ bs ↔ as < bs := by
  induction xs with
  | nil => exact Iff.rfl
  | cons x xs ih => rw [List.cons_append, List.cons_append, List.cons_lt_cons_self, ih]

/-- Two timestamps that were read are in the order of their texts exactly if both or neither lie
beyond the year 9999. -/
theorem bytes_text_lt_iff (ht : t.HasLeap) (hu : u.HasLeap) (htyear : -1 ≤ t.year ∧ t.year ≤ 10000)
    (huyear : -1 ≤ u.year ∧ u.year ≤ 10000) :
    (t < u ↔ bytes t.text < bytes u.text) ↔ (t.year ≤ 9999 ↔ u.year ≤ 9999) := by
  have horder := lt_iff_parts ht hu
  rw [← spellInYear_lt_iff] at horder
  rw [text, text, bytes_lt_iff t.ascii_spell u.ascii_spell, spell_eq_append, spell_eq_append,
    horder]
  rcases Int.lt_trichotomy t.year u.year with hyear | hyear | hyear
  · rw [(spellYear_append_lt_iff hyear htyear.1 huyear.2 _ _).1]
    omega
  · rw [hyear, append_lt_append_left_iff]
    simp
  · rw [(spellYear_append_lt_iff hyear huyear.1 htyear.2 _ _).2]
    omega

/--
For all timestamps that were read, whatever their dates, decimals, leap seconds and offsets: the
text of one is read as that timestamp exactly if it lies in the years 0 to 9999, and two are in the
order of the bytes of their texts exactly if both or neither lie beyond the year 9999.
-/
theorem text_faithful_iff (ha : parse a = .ok t) (hb : parse b = .ok u) :
    (parse t.text = .ok t ↔ 0 ≤ t.year ∧ t.year ≤ 9999) ∧
      ((t < u ↔ bytes t.text < bytes u.text) ↔ (t.year ≤ 9999 ↔ u.year ≤ 9999)) :=
  ⟨parse_text_iff (leap_of_parse ha), bytes_text_lt_iff (leap_of_parse ha) (leap_of_parse hb)
    (year_of_parse ha) (year_of_parse hb)⟩

/-- Half a second into the leap second at the end of 2016. -/
def leapSecond : Timestamp := ⟨127300895999500000⟩

/-- The start of 2017, which follows that leap second. -/
def newYear : Timestamp := ⟨127300896000000000⟩

/-- The last second of the year 9999 by a clock one hour behind. -/
def beyondCalendar : Timestamp := ⟨631139047198000000⟩

theorem text_faithful_newYear :
    parse "2016-12-31T23:59:60.5Z" = .ok leapSecond ∧
      parse "2017-01-01T05:30:00+05:30" = .ok newYear ∧
      parse leapSecond.text = .ok leapSecond ∧ parse newYear.text = .ok newYear ∧
      leapSecond < newYear ∧ bytes leapSecond.text < bytes newYear.text := by
  have hleap : parse "2016-12-31T23:59:60.5Z" = .ok leapSecond := by decide +kernel
  have hnew : parse "2017-01-01T05:30:00+05:30" = .ok newYear := by decide +kernel
  obtain ⟨hread, horder⟩ := text_faithful_iff hleap hnew
  obtain ⟨hreadNew, -⟩ := text_faithful_iff hnew hleap
  have hlt : leapSecond < newYear := by decide
  exact ⟨hleap, hnew, hread.mpr (by decide), hreadNew.mpr (by decide), hlt,
    (horder.mpr (by decide)).mp hlt⟩

/-- An offset may move the last hour of the year 9999 into the year 10000, whose text is not read
and comes before those of the years before it. -/
theorem not_text_faithful :
    (¬ ∀ (a : String) (t : Timestamp), parse a = .ok t → parse t.text = .ok t) ∧
      ¬ ∀ (a b : String) (t u : Timestamp), parse a = .ok t → parse b = .ok u →
        (t < u ↔ bytes t.text < bytes u.text) := by
  have hnew : parse "2017-01-01T05:30:00+05:30" = .ok newYear := by decide +kernel
  have hbeyond : parse "9999-12-31T23:59:59-01:00" = .ok beyondCalendar := by decide +kernel
  have htext : beyondCalendar.text = "+10000-01-01T00:59:59.000000Z" := by decide +kernel
  constructor
  · intro h
    have hread := h _ _ hbeyond
    rw [htext] at hread
    revert hread
    decide +kernel
  · intro h
    have horder := h _ _ _ _ hnew hbeyond
    rw [htext] at horder
    revert horder
    decide +kernel

end Timestamp

end Chronicle
