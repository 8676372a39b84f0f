import Chronicle.Proofs.CollectionFiles
import Mathlib.Data.List.DropRight

set_option autoImplicit false

/-!
# Appending to collection files

A file is read line by line, but an append goes on right where its text ends, be it in the middle
of a line. So what stands behind the last line feed becomes the start of the first line that is
appended: blanks there do no harm, for the reader passes over them, and a record there is spoilt.
Main statements: what is read from a text that ends well, and from an append to it
(`Lines.read_append_spell`), and what is loaded (`Holding.load_of_append`).
-/

namespace Chronicle

/-! ## Reading behind blanks -/

namespace Json

theorem map_eq_some_of_imp {α β : Type} {f : α → β} {x y : Option α} {b : β}
    (h : ∀ a, x = some a → y = some a) (hx : x.map f = some b) : y.map f = some b := by
  obtain ⟨a, ha, rfl⟩ := Option.map_eq_some_iff.mp hx
  rw [h a ha, Option.map_some]

mutual

/-- A value that is read is read as well with more fuel. -/
theorem readValue_succ {fuel : Nat} {shape : Shape} {cs : List Char} {r : Json × List Char}
    (h : readValue fuel shape cs = some r) : readValue (fuel + 1) shape cs = some r := by
  match fuel with
  | 0 => cases h
  | fuel + 1 =>
    rw [readValue] at h
    rw [readValue]
    split at h
    -- only in brackets and braces the fuel counts
    case h_6 =>
      split at h
      · exact h
      · exact map_eq_some_of_imp (fun _ => readItems_succ) h
    case h_7 =>
      split at h
      · exact h
      · exact map_eq_some_of_imp (fun _ => readFields_succ) h
    all_goals exact h

theorem readItems_succ {fuel : Nat} {shape : Shape} {cs : List Char} {r : List Json × List Char}
    (h : readItems fuel shape cs = some r) : readItems (fuel + 1) shape cs = some r := by
  match fuel with
  | 0 => cases h
  | fuel + 1 =>
    rw [readItems] at h
    rw [readItems]
    split at h
    · cases h
    · next hvalue =>
      simp only [readValue_succ hvalue]
      split at h
      · exact map_eq_some_of_imp (fun _ => readItems_succ) h
      · exact h
      · cases h

theorem readFields_succ {fuel : Nat} {shape : Shape} {cs : List Char}
    {r : List (String × Json) × List Char} (h : readFields fuel shape cs = some r) :
    readFields (fuel + 1) shape cs = some r := by
  match fuel with
  | 0 => cases h
  | fuel + 1 =>
    rw [readFields] at h
    rw [readFields]
    split at h
    · split at h
      · cases h
      · split at h
        · split at h
          · cases h
          · next hvalue =>
            simp only [readValue_succ hvalue]
            split at h
            · exact map_eq_some_of_imp (fun _ => readFields_succ) h
            · exact h
            · cases h
        · cases h
    · cases h

end

theorem readValue_mono {fuel fuel' : Nat} (hfuel : fuel ≤ fuel') {shape : Shape} {cs : List Char}
    {r : Json × List Char} (h : readValue fuel shape cs = some r) :
    readValue fuel' shape cs = some r := by
  induction hfuel with
  | refl => exact h
  | step _ ih => exact readValue_succ ih

section

variable {blanks : List Char} (hblanks : ∀ c ∈ blanks, isSpace c = true)

include hblanks

theorem readValue_blanks (fuel : Nat) (shape : Shape) (cs : List Char) :
    readValue (fuel + 1) shape (blanks ++ cs) = readValue (fuel + 1) shape cs := by
  have hskip : skipSpaces (blanks ++ cs) = skipSpaces cs := List.dropWhile_append_of_pos hblanks
  rw [readValue, readValue, hskip]

/-- Blanks before a text make no difference. -/
theorem readAs?_blanks {shape : Shape} {cs : List Char} {v : Json}
    (h : readAs? shape cs = some v) : readAs? shape (blanks ++ cs) = some v := by
  rw [readAs?] at h
  split at h
  · next w rest hread =>
    have hlength : cs.length + 1 ≤ (blanks ++ cs).length + 1 := by
      rw [List.length_append]
      omega
    rw [readAs?, readValue_blanks hblanks, readValue_mono hlength hread]
    exact h
  · cases h

end

/-- What is blank between the tokens of a text is blank in every script. -/
theorem isBlank_of_isSpace {c : Char} (h : isSpace c = true) : Text.isBlank c = true := by
  simp only [isSpace, Bool.or_eq_true, beq_iff_eq] at h
  rcases h with ((rfl | rfl) | rfl) | rfl <;> rfl

end Json

/-! ## The end of a text -/

namespace Text

/-- Only blanks that may stand between tokens follow the last line feed of the text. -/
def EndsBlank (cs : List Char) : Prop :=
  ∀ c ∈ cs.rtakeWhile (· != '\n'), Json.isSpace c = true

instance (cs : List Char) : Decidable (EndsBlank cs) :=
  inferInstanceAs (Decidable (∀ c ∈ cs.rtakeWhile (· != '\n'), Json.isSpace c = true))

theorem endsBlank_nil : EndsBlank [] := fun _ hc => absurd hc List.not_mem_nil

theorem endsBlank_feed_append (cs : List Char) {blanks : List Char}
    (h : ∀ c ∈ blanks, Json.isSpace c = true) : EndsBlank (cs ++ '\n' :: blanks) := by
  intro c hc
  rw [List.rtakeWhile, List.mem_reverse, List.reverse_append, List.reverse_cons, List.append_assoc,
    List.takeWhile_append] at hc
  refine h c (List.mem_reverse.mp ?_)
  split at hc
  · simpa using hc
  · exact (List.takeWhile_sublist _).subset hc

theorem endsBlank_feed (cs : List Char) : EndsBlank (cs ++ ['\n']) :=
  endsBlank_feed_append cs fun _ hc => absurd hc List.not_mem_nil

/-- A character that ends no line stands at the start of the first line. -/
theorem lines_cons {c : Char} {cs : List Char} (hfeed : c ≠ '\n')
    (hreturn : c = '\r' → cs.head? ≠ some '\n') :
    lines (c :: cs) =
      match lines cs with
      | [] => [[c]]
      | line :: more => (c :: line) :: more := by
  have hpair : ∀ rest, c = '\r' → cs = '\n' :: rest → False := by
    rintro rest hc rfl
    exact hreturn hc rfl
  rw [lines]
  all_goals first | rfl | exact hfeed | exact hpair

theorem lines_ne_nil {cs : List Char} (h : cs ≠ []) : lines cs ≠ [] := by
  unfold lines
  split
  · exact absurd rfl h
  · exact List.cons_ne_nil _ _
  · exact List.cons_ne_nil _ _
  · split <;> exact List.cons_ne_nil _ _

/-- The lines of two texts one after the other, of which the first ends with a line feed. -/
theorem lines_feed_append (cs ds : List Char) :
    lines (cs ++ '\n' :: ds) = lines (cs ++ ['\n']) ++ lines ds := by
  induction cs with
  | nil => rfl
  | cons c cs ih =>
      have hhead : (cs ++ '\n' :: ds).head? = (cs ++ ['\n']).head? := by cases cs <;> rfl
      rw [List.cons_append, List.cons_append]
      by_cases hfeed : c = '\n'
      · rw [hfeed, lines, lines, ih, List.cons_append]
      by_cases hreturn : c = '\r' ∧ (cs ++ ['\n']).head? = some '\n'
      · -- the carriage return goes with the line feed behind it
        obtain ⟨rfl, hnext⟩ := hreturn
        cases cs with
        | nil => rfl
        | cons d cs =>
            obtain rfl : d = '\n' := Option.some.inj hnext
            exact ih
      · have hnext : c = '\r' → (cs ++ ['\n']).head? ≠ some '\n' :=
          fun hc heq => hreturn ⟨hc, heq⟩
        rw [lines_cons hfeed hnext, lines_cons hfeed (hhead ▸ hnext), ih]
        cases hlines : lines (cs ++ ['\n']) with
        | nil => exact absurd hlines (lines_ne_nil (by simp))
        | cons line more => rfl

/-- What follows the last line feed of a text begins a line. -/
theorem lines_unended_append (cs ds : List Char) :
    lines (cs.rdropWhile (· != '\n') ++ ds) = lines (cs.rdropWhile (· != '\n')) ++ lines ds := by
  rcases eq_or_ne (cs.rdropWhile (· != '\n')) [] with hnil | hne
  · rw [hnil]
    rfl
  · have hlast : (cs.rdropWhile (· != '\n')).getLast hne = '\n' := by
      simpa using List.rdropWhile_last_not (· != '\n') cs hne
    rw [← List.dropLast_append_getLast hne, hlast, List.append_assoc]
    exact lines_feed_append _ ds

/-- A line that blanks are put in front of is still one line. -/
theorem lines_blanks_append {blanks line : List Char} (hblanks : ∀ c ∈ blanks, c ≠ '\n')
    (hline : OneLine line) (hne : line ≠ []) (rest : List Char) :
    lines (blanks ++ (line ++ '\n' :: rest)) = (blanks ++ line) :: lines rest := by
  induction blanks with
  | nil => exact lines_append_feed hline rest
  | cons c blanks ih =>
      obtain ⟨hc, hblanks⟩ := List.forall_mem_cons.mp hblanks
      -- what follows a carriage return among the blanks is no line feed
      have hnext : (blanks ++ (line ++ '\n' :: rest)).head? ≠ some '\n' := by
        intro heq
        cases blanks with
        | nil =>
            obtain ⟨d, line, rfl⟩ := List.exists_cons_of_ne_nil hne
            exact (hline d List.mem_cons_self).1 (Option.some.inj heq)
        | cons d blanks => exact hblanks d List.mem_cons_self (Option.some.inj heq)
      rw [List.cons_append, List.cons_append, lines_cons hc fun _ => hnext, ih hblanks]

/-- Lines have no characters but those of the text. -/
theorem mem_of_mem_lines {cs : List Char} : ∀ line ∈ lines cs, ∀ c ∈ line, c ∈ cs := by
  fun_induction lines cs with
  | case1 => exact fun line hline => absurd hline List.not_mem_nil
  | case2 rest ih => grind
  | case3 rest ih => grind
  | case4 c rest hfeed hreturn hrest ih => grind
  | case5 c rest hfeed hreturn line more hrest ih => grind

end Text

namespace Lines

variable {α : Type} {format : RecordFormat α}

theorem filled_eq_nil {ls : List (List Char)}
    (h : ∀ l ∈ ls, Text.isBlankText l = true) : filled ls = [] :=
  List.filter_eq_nil_iff.mpr fun l hl => by simp [h l hl]

/-- The line of a record is read as well behind blanks. -/
theorem readLine?_blanks {blanks : List Char} (hblanks : ∀ c ∈ blanks, Json.isSpace c = true)
    {line : List Char} {r : α} (h : readLine? format line = some r) :
    readLine? format (blanks ++ line) = some r := by
  obtain ⟨v, hv, hr⟩ := Option.bind_eq_some_iff.mp h
  exact Option.bind_eq_some_iff.mpr ⟨v, Json.readAs?_blanks hblanks hv, hr⟩

/-- Lines of records behind blanks are read as the records. -/
theorem readLine?_blanks_spell (hv : format.Visible) {blanks : List Char}
    (hblanks : ∀ c ∈ blanks, Json.isSpace c = true ∧ c ≠ '\n') {new : List α} (hne : new ≠ [])
    (hnew : ∀ r ∈ new, format.reread? r = some r) :
    (filled (Text.lines (blanks ++ spell format new))).map (readLine? format) =
      new.map some := by
  cases new with
  | nil => exact absurd rfl hne
  | cons r more =>
      obtain ⟨hr, hmore⟩ := List.forall_mem_cons.mp hnew
      have hvisible : ∀ l ∈ more.map (fun r => (format.encode r).spell),
          Text.isBlankText l = false := by
        intro l hl
        obtain ⟨r', -, rfl⟩ := List.mem_map.mp hl
        exact hv r'
      have hblank : Text.isBlankText (blanks ++ (format.encode r).spell) = false := by
        have hline : (format.encode r).spell.all Text.isBlank = false := hv r
        rw [Text.isBlankText, List.all_append, hline, Bool.and_false]
      have hline : (format.encode r).spell ≠ [] := by
        intro hnil
        have hline : Text.isBlankText (format.encode r).spell = false := hv r
        rw [hnil] at hline
        cases hline
      have hspell : spell format (r :: more) =
          (format.encode r).spell ++ '\n' :: spell format more := by
        rw [spell, List.flatMap_cons, List.append_assoc]
        rfl
      have hfilled : filled (more.map fun r => (format.encode r).spell) =
          more.map fun r => (format.encode r).spell :=
        List.filter_eq_self.mpr fun l hl => by rw [hvisible l hl, Bool.not_false]
      rw [hspell, Text.lines_blanks_append (fun c hc => (hblanks c hc).2) (Json.oneLine_spell _)
        hline, lines_spell, filled_cons_of_not_blank hblank, hfilled, List.map_cons, List.map_map,
        readLine?_blanks (fun c hc => (hblanks c hc).1) hr, List.map_cons]
      exact congrArg _ (List.map_congr_left hmore)

/-- The records of a text that ends well are read before those that are appended to it. -/
theorem read_append_spell (hv : format.Visible) {text : List Char} {rs new : List α}
    (hread : read format text = .ok rs) (hends : new ≠ [] → Text.EndsBlank text)
    (hnew : ∀ r ∈ new, format.reread? r = some r) :
    read format (text ++ spell format new) = .ok (rs ++ new) := by
  rcases eq_or_ne new [] with rfl | hne
  · rw [List.append_nil]
    exact (List.append_nil text).symm ▸ hread
  -- the blanks behind the last line feed come before the first line of the records
  have hback : ∀ c ∈ text.rtakeWhile (· != '\n'), Json.isSpace c = true ∧ c ≠ '\n' :=
    fun c hc => ⟨hends hne c hc, by simpa using List.mem_rtakeWhile_imp hc⟩
  have hlines := Text.lines_unended_append text
  have hblank : filled (Text.lines (text.rtakeWhile (· != '\n'))) = [] := by
    refine filled_eq_nil fun l hl => List.all_eq_true.mpr fun c hc => ?_
    exact Json.isBlank_of_isSpace (hback c (Text.mem_of_mem_lines l hl c hc)).1
  have hold := filled_of_readAll hread
  have htext : text = text.rdropWhile (· != '\n') ++ text.rtakeWhile (· != '\n') :=
    (List.rdropWhile_append_rtakeWhile).symm
  rw [htext, hlines, filled_append, hblank, List.append_nil] at hold
  refine readAll_of_filled 1 ?_
  rw [htext, List.append_assoc, hlines, filled_append, List.map_append, List.map_append, hold,
    readLine?_blanks_spell hv hback hne hnew]

/-- A text that ends well still does so after an append. -/
theorem endsBlank_append_spell {text : List Char} (h : Text.EndsBlank text) (new : List α) :
    Text.EndsBlank (text ++ spell format new) := by
  induction new using List.reverseRecOn with
  | nil => exact (List.append_nil text).symm ▸ h
  | append_singleton new r _ =>
      have hspell : spell format [r] = (format.encode r).spell ++ ['\n'] := List.append_nil _
      rw [spell_append, hspell, ← List.append_assoc, ← List.append_assoc]
      exact Text.endsBlank_feed _

end Lines

/-! ## Appending to files -/

namespace Directory

variable {d d' : Directory} {name : String} {text : List Char}

/-- What is read from a file is its content, if anything is. -/
theorem content_of_read {old : Option (List Char)} (h : d.read name = .ok old) :
    d.content name = old.getD [] := by
  rw [read] at h
  split at h
  · split at h
    · next hentry =>
      obtain rfl := Except.ok.inj h
      rw [content, hentry]
      rfl
    · next hentry =>
      obtain rfl := Except.ok.inj h
      rw [content, hentry]
      rfl
    · cases h
  · cases h

/-- After an append, a file that could be read has the text behind its own. -/
theorem read_of_append {old : Option (List Char)} (hread : d.read name = .ok old)
    (h : append name text d = (.ok (), d')) :
    d'.read name = .ok (some (d.content name ++ text)) := by
  have hallowed : allows name = true := by
    rw [read] at hread
    split at hread
    · next hallowed => exact hallowed
    · cases hread
  rw [content_of_read hread]
  rw [read, if_pos hallowed] at hread
  rw [append] at h
  split at h
  · next hwritable =>
    have hpresent := present_of_writable hwritable
    split at hread
    · next hentry =>
      obtain rfl := Except.ok.inj hread
      rw [hentry] at h
      cases h
      exact read_put hpresent hallowed _
    · next hentry =>
      obtain rfl := Except.ok.inj hread
      rw [hentry] at h
      cases h
      exact read_put hpresent hallowed _
    · cases hread
  · cases h

end Directory

namespace Lines

variable {α : Type} {format : RecordFormat α} {d d' : Directory} {layout : Layout}
variable {file : CollectionFileName} {rs new : List α}

/-- A file that is loaded has a text that is read, an empty one if there is no file. -/
theorem read_of_load (h : load format layout file d = .ok rs) :
    (∃ old, d.read file.text = .ok old) ∧ read format (d.content file.text) = .ok rs := by
  rw [load] at h
  split at h
  · cases h
  · next hread =>
    obtain rfl := Except.ok.inj h
    refine ⟨⟨_, hread⟩, ?_⟩
    rw [Directory.content_of_read hread]
    rfl
  · next text hread =>
    refine ⟨⟨_, hread⟩, ?_⟩
    rw [Directory.content_of_read hread, Option.getD_some]
    split at h
    · next hrecords =>
      obtain rfl := Except.ok.inj h
      exact hrecords
    · cases h

/-- After an append that succeeds, a file has the lines of the records behind its text. -/
theorem content_of_append (hload : load format layout file d = .ok rs)
    (h : append format file new d = (.ok (), d')) :
    d'.read file.text = .ok (some (d.content file.text ++ spell format new)) := by
  obtain ⟨⟨old, hread⟩, -⟩ := read_of_load hload
  rw [append, filing] at h
  cases hstep : Directory.append file.text (spell format new) d with
  | mk r d'' =>
      rw [hstep] at h
      cases r with
      | error e => cases h
      | ok u =>
          cases h
          exact Directory.read_of_append hread hstep

/-- A file that ends well still does so after an append that succeeds. -/
theorem endsBlank_of_append (hload : load format layout file d = .ok rs)
    (hends : Text.EndsBlank (d.content file.text))
    (h : append format file new d = (.ok (), d')) : Text.EndsBlank (d'.content file.text) := by
  have hcontent : d'.content file.text = d.content file.text ++ spell format new :=
    Directory.content_of_read (content_of_append hload h)
  rw [hcontent]
  exact endsBlank_append_spell hends new

/-- A file that ends well is loaded, after an append that succeeds, with the records appended. -/
theorem load_of_append (hv : format.Visible) (hload : load format layout file d = .ok rs)
    (hends : new ≠ [] → Text.EndsBlank (d.content file.text))
    (hnew : ∀ r ∈ new, format.reread? r = some r)
    (h : append format file new d = (.ok (), d')) :
    load format layout file d' = .ok (rs ++ new) := by
  have hread := read_append_spell hv (read_of_load hload).2 hends hnew
  rw [load_of_read (content_of_append hload h), hread]

end Lines

end Chronicle
