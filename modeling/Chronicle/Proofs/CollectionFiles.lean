import Chronicle.Proofs.Frames
import Chronicle.Proofs.RecordLines

set_option autoImplicit false

/-!
# Collections are read back from their files

What was written to the file of a collection is loaded from it, in its order; blank lines between
the lines of records do not count, and a line that is no record is told by its number, blank lines
included. Main statements: how the lines of a file are read up to any of them
(`Lines.readAll_append`), and what is loaded (`Holding.load_of_recordable`). Two of its conditions
cannot be left out (`Holding.not_load_of_leaping`). A leap second that does not follow the last
second of a minute has the text of another instant, and no file gives it back
(`Holding.leap_of_load`). And a file has to be text: in any other no line is told by its number.
-/

namespace Chronicle

namespace Lines

variable {α : Type} {format : RecordFormat α}

/-- The lines that are not blank. -/
def filled (ls : List (List Char)) : List (List Char) := ls.filter fun l => !Text.isBlankText l

theorem filled_append (ls ls' : List (List Char)) : filled (ls ++ ls') = filled ls ++ filled ls' :=
  List.filter_append ls ls'

theorem filled_cons_of_blank {l : List Char} (h : Text.isBlankText l = true)
    (ls : List (List Char)) : filled (l :: ls) = filled ls := by
  rw [filled, List.filter_cons, h]
  rfl

theorem filled_cons_of_not_blank {l : List Char} (h : Text.isBlankText l = false)
    (ls : List (List Char)) : filled (l :: ls) = l :: filled ls := by
  rw [filled, List.filter_cons, h]
  rfl

/-- The lines after others are read with the numbers that they have, behind the records of the
lines before them; blank lines have numbers and no records. -/
theorem readAll_append {before : List (List Char)} {rs : List α} (number : Nat)
    (h : (filled before).map (readLine? format) = rs.map some) (after : List (List Char)) :
    readAll format number (before ++ after) =
      (readAll format (number + before.length) after).map (rs ++ ·) := by
  induction before generalizing rs number with
  | nil =>
      obtain rfl : rs = [] := by simpa [filled] using h.symm
      rw [List.nil_append, List.length_nil, Nat.add_zero]
      cases readAll format number after <;> rfl
  | cons l before ih =>
      have hnumber : number + (l :: before).length = number + 1 + before.length := by
        rw [List.length_cons]
        omega
      rw [List.cons_append, readAll, hnumber]
      cases hblank : Text.isBlankText l with
      | true =>
          rw [filled_cons_of_blank hblank] at h
          rw [if_pos rfl, ih (number + 1) h]
      | false =>
          rw [filled_cons_of_not_blank hblank, List.map_cons] at h
          cases rs with
          | nil => cases h
          | cons r rs =>
              obtain ⟨hr, hrest⟩ := List.cons.inj h
              rw [if_neg Bool.false_ne_true, hr, ih (number + 1) hrest]
              cases readAll format (number + 1 + before.length) after <;> rfl

/-- Lines are read as the records of those that are not blank. -/
theorem readAll_of_filled {ls : List (List Char)} {rs : List α} (number : Nat)
    (h : (filled ls).map (readLine? format) = rs.map some) :
    readAll format number ls = .ok rs := by
  have hread := readAll_append number h []
  rw [List.append_nil] at hread
  rw [hread, readAll]
  exact congrArg Except.ok (List.append_nil rs)

/-- What is read are the records of the lines that are not blank. -/
theorem filled_of_readAll {ls : List (List Char)} {rs : List α} {number : Nat}
    (h : readAll format number ls = .ok rs) :
    (filled ls).map (readLine? format) = rs.map some := by
  induction ls generalizing rs number with
  | nil =>
      obtain rfl : [] = rs := Except.ok.inj h
      rfl
  | cons l ls ih =>
      rw [readAll] at h
      cases hblank : Text.isBlankText l with
      | true =>
          rw [if_pos hblank] at h
          rw [filled_cons_of_blank hblank]
          exact ih h
      | false =>
          rw [if_neg (by rw [hblank]; exact Bool.false_ne_true)] at h
          rw [filled_cons_of_not_blank hblank, List.map_cons]
          cases hline : readLine? format l with
          | none =>
              rw [hline] at h
              cases h
          | some r =>
              rw [hline] at h
              cases hrest : readAll format (number + 1) ls with
              | error n =>
                  rw [hrest] at h
                  cases h
              | ok rest =>
                  rw [hrest] at h
                  obtain rfl : r :: rest = rs := Except.ok.inj h
                  rw [ih hrest, List.map_cons]

/-- Reading stops at a line that is neither blank nor a record, with its number. -/
theorem readAll_of_malformed {before : List (List Char)} {rs : List α} (number : Nat)
    (h : (filled before).map (readLine? format) = rs.map some) {line : List Char}
    (hblank : Text.isBlankText line = false) (hline : readLine? format line = none)
    (after : List (List Char)) :
    readAll format number (before ++ line :: after) = .error (number + before.length) := by
  rw [readAll_append number h, readAll, if_neg (by rw [hblank]; exact Bool.false_ne_true), hline]
  rfl

/-- What a file that can be read loads as. -/
theorem load_of_read {d : Directory} {layout : Layout} {file : CollectionFileName}
    {text : List Char} (h : d.read file.text = .ok (some text)) :
    load format layout file d = match read format text with
      | .ok records => .ok records
      | .error line => .error (.malformedLine (layout.pathOf file) line) := by
  unfold load
  split
  · next e hread =>
    rw [h] at hread
    cases hread
  · next hread =>
    rw [h] at hread
    cases hread
  · next text' hread =>
    rw [h] at hread
    cases hread
    rfl

/-- Whatever is loaded was read from a line. -/
theorem readLine?_of_load {d : Directory} {layout : Layout} {file : CollectionFileName}
    {rs : List α} (h : load format layout file d = .ok rs) :
    ∀ r ∈ rs, ∃ line, readLine? format line = some r := by
  intro r hr
  unfold load at h
  split at h
  · cases h
  · cases h
    cases hr
  · next text _ =>
    cases hread : read format text with
    | error number =>
        rw [hread] at h
        cases h
    | ok records =>
        rw [hread] at h
        cases h
        have hmem : some r ∈ (filled (Text.lines text)).map (readLine? format) := by
          rw [filled_of_readAll hread]
          exact List.mem_map_of_mem hr
        obtain ⟨line, -, hline⟩ := List.mem_map.mp hmem
        exact ⟨line, hline⟩

end Lines

namespace Holding

variable {c : Holding} {layout : Layout} {rs : List c.Record}

/-- A record of the collection that its line can tell; an id is always told. -/
def Recordable : (c : Holding) → c.Record → Prop
  | envelopes _, s => StoredEnvelope.Recordable s
  | marks, _ => True
  | readModels, s => StoredReadModel.Recordable s

/-- The line of a record. -/
def line (c : Holding) (r : c.Record) : List Char := (c.format.encode r).spell

theorem visible (c : Holding) : c.format.Visible := by
  cases c with
  | envelopes kind => exact RecordFormat.visible_envelopes
  | marks => exact RecordFormat.visible_ids
  | readModels => exact RecordFormat.visible_readModels

theorem Recordable.reread? {r : c.Record} (h : c.Recordable r) : c.format.reread? r = some r := by
  cases c with
  | envelopes kind => exact RecordFormat.reread?_envelopes h
  | marks => exact RecordFormat.reread?_ids r
  | readModels => exact RecordFormat.reread?_readModels h

/-- The lines of records are read as the records. -/
theorem readLine?_lines (h : ∀ r ∈ rs, c.Recordable r) :
    (rs.map c.line).map (Lines.readLine? c.format) = rs.map some := by
  rw [List.map_map]
  apply List.map_congr_left
  intro r hr
  exact (h r hr).reread?

/-- The records that a file was rewritten with are loaded from it, in their order. So they are
from every text with their lines and blank ones, and where one line in it is neither blank nor a
record, the load fails with the number of that line. -/
theorem load_of_recordable (c : Holding) (layout : Layout) {rs : List c.Record}
    (hrs : ∀ r ∈ rs, c.Recordable r) :
    (∀ d d' : Directory, Lines.replaceAll c.format (c.file layout) rs d = (.ok (), d') →
      c.load layout d' = .ok rs) ∧
    ∀ (d : Directory) (text : List Char), d.read (c.file layout).text = .ok (some text) →
      (Lines.filled (Text.lines text) = rs.map c.line → c.load layout d = .ok rs) ∧
      ∀ (before : List (List Char)) (line : List Char) (after : List (List Char)),
        Text.lines text = before ++ line :: after →
        Lines.filled (before ++ after) = rs.map c.line → Text.isBlankText line = false →
        Lines.readLine? c.format line = none →
          c.load layout d =
            .error (.malformedLine (layout.pathOf (c.file layout)) (before.length + 1)) := by
  constructor
  · intro d d' hrewritten
    have hread : Lines.read c.format (Lines.spell c.format rs) = .ok rs := by
      rw [Lines.read_spell_eq_ok_iff c.visible]
      exact List.map_congr_left fun r hr => (hrs r hr).reread?
    rw [load, Lines.load_of_read (Lines.read_of_replaceAll hrewritten), hread]
  intro d text htext
  rw [load, Lines.load_of_read htext, Lines.read]
  constructor
  · intro hlines
    rw [Lines.readAll_of_filled 1 (by rw [hlines, readLine?_lines hrs])]
  · intro before line after hsplit hlines hblank hline
    -- the lines before the malformed one are those of the first records
    rw [Lines.filled_append] at hlines
    obtain ⟨ps, qs, rfl, hbefore, -⟩ := List.map_eq_append_iff.mp hlines.symm
    have hps : ∀ r ∈ ps, c.Recordable r := fun r hr => hrs r (List.mem_append_left qs hr)
    have hread : (Lines.filled before).map (Lines.readLine? c.format) = ps.map some := by
      rw [← hbefore, readLine?_lines hps]
    rw [hsplit, Lines.readAll_of_malformed 1 hread hblank hline, Nat.add_comm]

/-- An event with a text of many lines and scripts, created in a leap second. -/
def remark : Envelope :=
  { Envelope.event
      ⟨⟨"Stall", by decide, by decide, by decide, by decide⟩,
        ⟨"s 1", by decide, by decide, by decide, by decide⟩⟩
      ⟨"Remarked", by decide, by decide, by decide, by decide⟩
      (.object [("text", .string "one\nsaid \"é\"\x07\\"), ("count", .ofNat 18446744073709551615)])
      (.ofSecond 63650447999 1500000) with
    requestId := some "r\r\n1"
    persistedAt := some ⟨0⟩ }

theorem recordable_remark (id : UniqueId) : StoredEnvelope.Recordable ⟨id, remark⟩ where
  value := ⟨show remark.value.hasWords = true by decide +kernel,
    show remark.value.hasDistinctKeys = true by decide +kernel⟩
  instants := by
    have hmem : remark.instants = [.ofSecond 63650447999 1500000, ⟨0⟩] := rfl
    intro t ht
    rw [hmem, List.mem_cons, List.mem_singleton] at ht
    rcases ht with rfl | rfl
    · exact ⟨by decide +kernel, fun _ => by decide +kernel⟩
    · exact ⟨by decide +kernel, fun hleap => absurd hleap (by decide +kernel)⟩
  depth := Nat.le_of_ble_eq_true rfl

/-- The remark as it is stored under two ids. -/
def remarks : List StoredEnvelope := [⟨.ofNat 1, remark⟩, ⟨.ofNat 2, remark⟩]

theorem recordable_remarks : ∀ r ∈ remarks, (envelopes .event).Recordable r := by
  intro r hr
  simp only [remarks, List.mem_cons, List.not_mem_nil, or_false] at hr
  rcases hr with rfl | rfl
  · exact recordable_remark (.ofNat 1)
  · exact recordable_remark (.ofNat 2)

/-- The line of a remark. -/
def remarkLine (n : Nat) : List Char := (envelopes .event).line ⟨.ofNat n, remark⟩

/-- A directory whose file of events has the given lines. -/
def withEvents (ls : List (List Char)) : Directory :=
  Directory.put Layout.eventsFile.text (.file (Text.unlines ls)) ⟨some [], []⟩

theorem load_remarks :
    (envelopes .event).load (.ofDataDir "data")
        (Lines.replaceAll .envelopes Layout.eventsFile remarks ⟨some [], []⟩).2 = .ok remarks ∧
      (envelopes .event).load (.ofDataDir "data")
        (withEvents [[], remarkLine 1, [' ', '\t'], [], remarkLine 2]) = .ok remarks ∧
      (envelopes .event).load (.ofDataDir "data")
        (withEvents [[], remarkLine 1, ['\x7b'], remarkLine 2]) =
          .error (.malformedLine "data/events.jsonl" 3) := by
  obtain ⟨hrewritten, hread⟩ :=
    load_of_recordable (envelopes .event) (.ofDataDir "data") recordable_remarks
  have hline : ∀ n, Text.OneLine (remarkLine n) := fun n => Json.oneLine_spell _
  have hvisible : ∀ n, Text.isBlankText (remarkLine n) = false := fun n => rfl
  have htext : ∀ ls, (withEvents ls).read Layout.eventsFile.text = .ok (some (Text.unlines ls)) :=
    fun ls => Directory.read_put rfl (by decide +kernel) _
  have hblank : Text.OneLine [' ', '\t'] := by simp
  have hbrace : Text.OneLine ['\x7b'] := by simp
  refine ⟨hrewritten ⟨some [], []⟩ _ rfl, ?_, ?_⟩
  · apply (hread _ _ (htext _)).1
    rw [Text.lines_unlines (by simp [hline, hblank]), Lines.filled_cons_of_blank rfl,
      Lines.filled_cons_of_not_blank (hvisible 1), Lines.filled_cons_of_blank rfl,
      Lines.filled_cons_of_blank rfl, Lines.filled_cons_of_not_blank (hvisible 2)]
    rfl
  -- the blank line before the malformed one is counted
  · apply (hread _ _ (htext _)).2 [[], remarkLine 1] ['\x7b'] [remarkLine 2]
    · exact Text.lines_unlines (by simp [hline, hbrace])
    · rw [List.cons_append, Lines.filled_cons_of_blank rfl, List.cons_append,
        Lines.filled_cons_of_not_blank (hvisible 1), List.nil_append,
        Lines.filled_cons_of_not_blank (hvisible 2)]
      rfl
    · rfl
    · rfl

/-- No file gives back a leap second but one after the last second of a minute. -/
theorem leap_of_load {kind : EnvelopeKind} {d : Directory} {ss : List StoredEnvelope}
    (h : (envelopes kind).load layout d = .ok ss) :
    ∀ s ∈ ss, ∀ t ∈ s.envelope.instants, t.HasLeap := by
  intro s hs
  obtain ⟨line, hline⟩ := Lines.readLine?_of_load h s hs
  exact StoredEnvelope.leap_of_readLine? hline

/-- The remark, created in a leap second after the first second of a minute. -/
def leapingRemark : Envelope :=
  { remark with createdAt := .ofSecond 63881740800 1500000 }

/-- A directory whose file of events is no text. -/
def withBinaryEvents : Directory := Directory.put Layout.eventsFile.text .binary ⟨some [], []⟩

/--
An envelope with all other conditions is not loaded again if a time of it lies in a leap second
after any other second of a minute, which has the text of the second that follows. In a file that
is no text, no line is found to be malformed.
-/
theorem not_load_of_leaping :
    leapingRemark.value.Lossless ∧ (∀ t ∈ leapingRemark.instants, 0 ≤ t.year ∧ t.year ≤ 9999) ∧
      (StoredEnvelope.toJson ⟨.ofNat 1, leapingRemark⟩).depth ≤ Lines.maxDepth ∧
      (∃ d', Lines.replaceAll .envelopes Layout.eventsFile [⟨.ofNat 1, leapingRemark⟩]
          ⟨some [], []⟩ = (.ok (), d') ∧
        (envelopes .event).load (.ofDataDir "data") d' ≠ .ok [⟨.ofNat 1, leapingRemark⟩]) ∧
      Timestamp.parse leapingRemark.createdAt.text = .ok (.ofSecond 63881740801 500000) ∧
      (envelopes .event).load (.ofDataDir "data") withBinaryEvents =
        .error (.io "events.jsonl cannot be read") := by
  have hrecordable := recordable_remark (.ofNat 1)
  have hmem : leapingRemark.instants = [.ofSecond 63881740800 1500000, ⟨0⟩] := rfl
  have hyear : ∀ t ∈ leapingRemark.instants, 0 ≤ t.year ∧ t.year ≤ 9999 := by
    intro t ht
    rw [hmem, List.mem_cons, List.mem_singleton] at ht
    rcases ht with rfl | rfl
    · decide +kernel
    · decide +kernel
  have hleap : ¬leapingRemark.createdAt.HasLeap := by decide +kernel
  refine ⟨hrecordable.value, hyear, Nat.le_of_ble_eq_true rfl, ⟨_, rfl, ?_⟩, ?_, ?_⟩
  · intro hload
    exact hleap (leap_of_load hload _ List.mem_cons_self _ List.mem_cons_self)
  · exact Timestamp.parse_text_of_not_leap (hyear _ List.mem_cons_self) hleap
  · rfl

end Holding

end Chronicle
