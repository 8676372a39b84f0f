import Chronicle.Proofs.UniqueId
import Chronicle.Storage.Lines
import Mathlib.Data.List.Perm.Basic

set_option autoImplicit false

/-!
# Files of records, line by line

A file of records has one line for each record, so what is read from it is what is read from each
line on its own. Main statements: which records a text of records reads as
(`Lines.read_spell_eq_ok_iff`), ids read back (`RecordFormat.reread?_ids`), and texts whose lines
read as the same records load the same, in whatever order (`Lines.Mirrors.sameRecords`).
-/

namespace Chronicle

/-- A line that ends at a line feed is the first one. -/
theorem Text.lines_append_feed {line : List Char} (h : Text.OneLine line) (rest : List Char) :
    Text.lines (line ++ '\n' :: rest) = line :: Text.lines rest := by
  induction line with
  | nil => simp [Text.lines]
  | cons c cs ih =>
      obtain ⟨⟨hfeed, hreturn⟩, hcs⟩ := Text.oneLine_cons.mp h
      rw [List.cons_append, Text.lines, ih hcs]
      · exact hfeed
      · intro _ hc
        exact absurd hc hreturn

/-- The text of lines, each ended by a line feed. -/
def Text.unlines (ls : List (List Char)) : List Char := ls.flatMap fun l => l ++ ['\n']

/-- Lines are found again in their text. -/
theorem Text.lines_unlines {ls : List (List Char)} (h : ∀ l ∈ ls, Text.OneLine l) :
    Text.lines (Text.unlines ls) = ls := by
  induction ls with
  | nil => rfl
  | cons l ls ih =>
      have htext : Text.unlines (l :: ls) = l ++ '\n' :: Text.unlines ls := by
        simp [Text.unlines]
      rw [htext, Text.lines_append_feed (h l List.mem_cons_self),
        ih fun l' hl' => h l' (List.mem_cons_of_mem _ hl')]

variable {α : Type} {format : RecordFormat α}

namespace RecordFormat

/-- A format whose records are never written as a blank line. -/
def Visible (format : RecordFormat α) : Prop :=
  ∀ r, Text.isBlankText (format.encode r).spell = false

theorem visible_envelopes : envelopes.Visible := fun _ => rfl

theorem visible_ids : ids.Visible := fun _ => rfl

/-- What is read from the line of a record. -/
def reread? (format : RecordFormat α) (r : α) : Option α :=
  Lines.readLine? format (format.encode r).spell

/-- The text of a string reads as that string. -/
theorem readAs?_spell_string (text : String) :
    Json.readAs? .any (Json.string text).spell = some (.string text) := by
  have hkeeps : Json.Shape.keeps .any = true := rfl
  have hvalue := Json.readValue_spellString (Json.spellString text).length hkeeps text []
  rw [List.append_nil] at hvalue
  show Json.readAs? .any (Json.spellString text) = _
  rw [Json.readAs?, hvalue]
  rfl

/-- An id is read back from its line. -/
theorem reread?_ids (id : UniqueId) : ids.reread? id = some id := by
  show ((Json.readAs? .any (Json.string id.text).spell).bind fun v =>
    if v.depth ≤ Lines.maxDepth then Json.id? v else none) = some id
  -- a string is not nested
  have hflat : (Json.string id.text).depth ≤ Lines.maxDepth := Nat.zero_le _
  rw [readAs?_spell_string, Option.bind_some, if_pos hflat]
  exact UniqueId.parse?_text id

end RecordFormat

namespace Lines

theorem spell_append (rs ss : List α) :
    spell format (rs ++ ss) = spell format rs ++ spell format ss := List.flatMap_append

theorem spell_eq_unlines (rs : List α) :
    spell format rs = Text.unlines (rs.map fun r => (format.encode r).spell) := by
  rw [spell, Text.unlines, List.flatMap_map]

/-- A text of records has the line of each record. -/
theorem lines_spell (rs : List α) :
    Text.lines (spell format rs) = rs.map fun r => (format.encode r).spell := by
  rw [spell_eq_unlines, Text.lines_unlines]
  intro l hl
  obtain ⟨r, -, rfl⟩ := List.mem_map.mp hl
  exact Json.oneLine_spell _

/-- Lines without a blank one are read if each of them is. -/
theorem readAll_eq_ok_iff {ls : List (List Char)} (h : ∀ l ∈ ls, Text.isBlankText l = false)
    (number : Nat) (rs : List α) :
    readAll format number ls = .ok rs ↔ ls.map (readLine? format) = rs.map some := by
  induction ls generalizing number rs with
  | nil =>
      cases rs with
      | nil => simp [readAll]
      | cons r rs => simp [readAll]
  | cons l ls ih =>
      -- the number of the line matters for the error only
      have hrest := fun ss => ih (fun l' hl' => h l' (List.mem_cons_of_mem _ hl')) (number + 1) ss
      rw [readAll, h l List.mem_cons_self, List.map_cons, if_neg Bool.false_ne_true]
      cases hl : readLine? format l with
      | none => cases rs <;> simp
      | some r =>
          dsimp only
          cases hread : readAll format (number + 1) ls with
          | ok ss =>
              have hinjective : Function.Injective (List.map (some : α → Option α)) :=
                List.map_injective_iff.mpr fun _ _ h => Option.some.inj h
              rw [(hrest ss).mp hread, ← List.map_cons, hinjective.eq_iff]
              simp only [Except.ok.injEq]
          | error k =>
              constructor
              · intro hok
                cases hok
              · intro hlines
                cases rs with
                | nil => cases hlines
                | cons r' ss =>
                    rw [(hrest ss).mpr (List.cons.inj hlines).2] at hread
                    cases hread

/-- A text of records reads as the records that are read back from them, one by one. -/
theorem read_spell_eq_ok_iff (hv : format.Visible) (rs ss : List α) :
    read format (spell format rs) = .ok ss ↔ rs.map format.reread? = ss.map some := by
  have hvisible : ∀ l ∈ rs.map (fun r => (format.encode r).spell),
      Text.isBlankText l = false := by
    intro l hl
    obtain ⟨r, -, rfl⟩ := List.mem_map.mp hl
    exact hv r
  rw [read, lines_spell, readAll_eq_ok_iff hvisible, List.map_map]
  rfl

/-- Two loads of the same records in whatever order, or two that fail. -/
def SameRecords {ε : Type} : Except ε (List α) → Except ε (List α) → Prop
  | .ok rs, .ok ss => rs.Perm ss
  | .error _, .error _ => True
  | _, _ => False

/-- The text has the lines of records that read as the given ones do, in whatever order. -/
def Mirrors (format : RecordFormat α) (text : List Char) (records : List α) : Prop :=
  ∃ rs, text = spell format rs ∧ (rs.map format.reread?).Perm (records.map format.reread?)

namespace Mirrors

variable {text text' : List Char} {records records' : List α}

theorem nil : Mirrors format [] [] := ⟨[], rfl, .refl _⟩

theorem of_spell (records : List α) : Mirrors format (spell format records) records :=
  ⟨records, rfl, .refl _⟩

theorem trans (h : Mirrors format text records)
    (hp : (records.map format.reread?).Perm (records'.map format.reread?)) :
    Mirrors format text records' := by
  obtain ⟨rs, htext, hrs⟩ := h
  exact ⟨rs, htext, hrs.trans hp⟩

theorem perm (h : Mirrors format text records) (hp : records.Perm records') :
    Mirrors format text records' := h.trans (hp.map _)

/-- A text goes on mirroring when the line of a record is put behind it. -/
theorem append_spell (h : Mirrors format text records) (r : α) :
    Mirrors format (text ++ spell format [r]) (r :: records) := by
  obtain ⟨rs, rfl, hrs⟩ := h
  refine ⟨rs ++ [r], (spell_append _ _).symm, ?_⟩
  rw [List.map_append, List.map_cons]
  exact (List.perm_append_singleton _ _).trans (hrs.cons _)

/-- What such a text reads as are the records as they read back. -/
theorem perm_of_read (hv : format.Visible) (h : Mirrors format text records) {ss : List α}
    (hread : read format text = .ok ss) : (ss.map some).Perm (records.map format.reread?) := by
  obtain ⟨rs, rfl, hrs⟩ := h
  rw [← (read_spell_eq_ok_iff hv rs ss).mp hread]
  exact hrs

/-- Such a text is read if each record reads back as some record. -/
theorem read_of_perm (hv : format.Visible) (h : Mirrors format text records) {ss : List α}
    (hss : (ss.map some).Perm (records.map format.reread?)) :
    ∃ ss', read format text = .ok ss' ∧ ss'.Perm ss := by
  obtain ⟨rs, rfl, hrs⟩ := h
  have hcomp := congrFun₂ (List.eq_map_comp_perm some) (rs.map format.reread?) ss
  obtain ⟨ss', hss', hp⟩ := hcomp.mpr (hrs.trans hss.symm)
  exact ⟨ss', (read_spell_eq_ok_iff hv rs ss').mpr hss', hp⟩

/-- Texts that mirror the same records load the same. -/
theorem sameRecords (hv : format.Visible) (h : Mirrors format text records)
    (h' : Mirrors format text' records) :
    SameRecords (read format text) (read format text') := by
  cases hread : read format text with
  | ok ss =>
      obtain ⟨ss', hread', hp⟩ := h'.read_of_perm hv (h.perm_of_read hv hread)
      rw [hread']
      exact hp.symm
  -- if one text could be read, so could the other
  | error k =>
      cases hread' : read format text' with
      | ok ss' =>
          obtain ⟨ss, hread'', -⟩ := h.read_of_perm hv (h'.perm_of_read hv hread')
          rw [hread] at hread''
          cases hread''
      | error k' => trivial

end Mirrors

end Lines

end Chronicle
