import Chronicle.Proofs.Lines
import Chronicle.Proofs.Ordered

set_option autoImplicit false

/-!
# Writing collection files

What appending to a file and writing it anew do to a directory. Main statements: all that a
rewrite can do to any directory (`Lines.replaceAll_cases`); in one of text files, an append puts
text behind that of its file (`Lines.append_spec`), a rewrite puts its text in the place of it, by
way of a file beside it (`Lines.replaceAll_spec`); each of them either succeeds or leaves the file
as it is, and no other file changes.
-/

namespace Chronicle

namespace Directory

variable {d d' d'' : Directory} {name : String}

/-- A directory that exists and holds nothing but text files. -/
structure Plain (d : Directory) : Prop where
  present : d.isPresent = true
  ascending : ∀ es, d.entries = some es → OrderedMap.Ascending es
  texts : ∀ name e, d.entry? name = some e → ∃ text, e = .file text

/-- The text of a file, empty if there is none. -/
def content (d : Directory) (name : String) : List Char :=
  match d.entry? name with
  | some (.file text) => text
  | _ => []

/-- The directories refuse the same writes and have the same entries, but for the given names. -/
structure AgreesBut (names : List String) (d d' : Directory) : Prop where
  sealedNames : d'.sealedNames = d.sealedNames
  entry : ∀ name, name ∉ names → d'.entry? name = d.entry? name

theorem AgreesBut.refl (names : List String) (d : Directory) : AgreesBut names d d :=
  ⟨rfl, fun _ _ => rfl⟩

theorem AgreesBut.trans {names : List String} (h : AgreesBut names d d')
    (h' : AgreesBut names d' d'') : AgreesBut names d d'' :=
  ⟨h'.sealedNames.trans h.sealedNames,
    fun name hn => (h'.entry name hn).trans (h.entry name hn)⟩

theorem AgreesBut.mono {names names' : List String} (h : AgreesBut names d d')
    (hsub : names ⊆ names') : AgreesBut names' d d' :=
  ⟨h.sealedNames, fun name hn => h.entry name fun hmem => hn (hsub hmem)⟩

theorem content_congr (h : d'.entry? name = d.entry? name) : d'.content name = d.content name := by
  rw [content, content, h]

theorem content_of_entry {text : List Char} (h : d.entry? name = some (.file text)) :
    d.content name = text := by
  rw [content, h]

/-! ## Entries put and dropped -/

theorem isPresent_iff : d.isPresent = true ↔ ∃ es, d.entries = some es := Option.isSome_iff_exists

@[simp] theorem isPresent_drop (n : String) : (d.drop n).isPresent = d.isPresent :=
  Option.isSome_map

theorem entry?_put (h : d.isPresent = true) (name : String) (entry : Entry) (n : String) :
    entry? (d.put name entry) n = if n = name then some entry else d.entry? n := by
  obtain ⟨es, hes⟩ := isPresent_iff.mp h
  unfold entry? put
  simp only [hes, Option.map_some, Option.bind_some]
  exact OrderedMap.find?_insert _ _ _ _

theorem entry?_drop (h : d.Plain) (name n : String) :
    entry? (d.drop name) n = if n = name then none else d.entry? n := by
  obtain ⟨es, hes⟩ := isPresent_iff.mp h.present
  unfold entry? drop
  simp only [hes, Option.map_some, Option.bind_some]
  exact OrderedMap.find?_erase (h.ascending es hes) _ _

theorem Plain.put (h : d.Plain) (name : String) (text : List Char) :
    (d.put name (.file text)).Plain := by
  obtain ⟨es, hes⟩ := isPresent_iff.mp h.present
  refine ⟨by simp [Directory.put, isPresent, hes], ?_, ?_⟩
  · intro es' hes'
    obtain rfl : OrderedMap.insert name (.file text) es = es' := by
      simpa [Directory.put, hes] using hes'
    exact OrderedMap.ascending_insert _ _ (h.ascending es hes)
  · intro n e he
    rw [entry?_put h.present] at he
    split at he
    · exact ⟨text, (Option.some.inj he).symm⟩
    · exact h.texts n e he

theorem Plain.drop (h : d.Plain) (name : String) : (d.drop name).Plain := by
  obtain ⟨es, hes⟩ := isPresent_iff.mp h.present
  refine ⟨by simp [Directory.drop, isPresent, hes], ?_, ?_⟩
  · intro es' hes'
    obtain rfl : OrderedMap.erase name es = es' := by simpa [Directory.drop, hes] using hes'
    exact OrderedMap.ascending_erase _ (h.ascending es hes)
  · intro n e he
    rw [entry?_drop h] at he
    split at he
    · cases he
    · exact h.texts n e he

theorem agreesBut_put (h : d.isPresent = true) (name : String) (entry : Entry) :
    AgreesBut [name] d (d.put name entry) := by
  refine ⟨rfl, fun n hn => ?_⟩
  rw [entry?_put h, if_neg (List.mem_singleton.not.mp hn)]

theorem agreesBut_drop (h : d.Plain) (name : String) : AgreesBut [name] d (d.drop name) := by
  refine ⟨rfl, fun n hn => ?_⟩
  rw [entry?_drop h, if_neg (List.mem_singleton.not.mp hn)]

/-- A file that was put into a directory is read from it. -/
theorem read_put (h : d.isPresent = true) (ha : allows name = true) (text : List Char) :
    (d.put name (.file text)).read name = .ok (some text) := by
  rw [read, if_pos ha, entry?_put h, if_pos rfl]

/-! ## Which files can be written -/

theorem present_of_writable (h : d.writable name = true) : d.isPresent = true := by
  simp only [writable, Bool.and_eq_true] at h
  exact h.1.1.1

theorem allows_of_writable (h : d.writable name = true) : allows name = true := by
  simp only [writable, Bool.and_eq_true] at h
  exact h.1.1.2

/-- In a directory of text files, only the name and the seals decide what can be written. -/
theorem Plain.writable_eq (h : d.Plain) (name : String) :
    d.writable name = (allows name && !d.sealedNames.contains name) := by
  -- no name of a plain directory stands for a folder
  have hfolder : ( d.entry? name != some .folder) = true := by
    cases hentry : d.entry? name with
    | none => rfl
    | some e =>
        obtain ⟨text, rfl⟩ := h.texts name e hentry
        rfl
  rw [writable, h.present, hfolder, Bool.true_and, Bool.and_true]

theorem Plain.writable_of_unsealed (h : d.Plain) (hs : d.sealedNames = [])
    (ha : allows name = true) : d.writable name = true := by
  rw [h.writable_eq, ha, hs]
  rfl

theorem Plain.writable_congr (h : d.Plain) (h' : d'.Plain) (hs : d'.sealedNames = d.sealedNames)
    (name : String) : d'.writable name = d.writable name := by
  rw [h.writable_eq, h'.writable_eq, hs]

/-- Whether a file can be written anew, by way of the file beside it. -/
def rewritable (d : Directory) (name : String) : Bool :=
  d.writable (Lines.stagingName name) && d.writable name

theorem Plain.rewritable_congr (h : d.Plain) (h' : d'.Plain)
    (hs : d'.sealedNames = d.sealedNames) (name : String) :
    d'.rewritable name = d.rewritable name := by
  rw [rewritable, rewritable, h.writable_congr h' hs, h.writable_congr h' hs]

/-- An append to a file that can be written puts the text behind its own. -/
theorem Plain.append_of_writable (h : d.Plain) (hw : d.writable name = true)
    (text : List Char) :
    append name text d = (.ok (), d.put name (.file (d.content name ++ text))) := by
  rw [append, if_pos hw, content]
  cases hentry : d.entry? name with
  | none => rfl
  | some e =>
      obtain ⟨old, rfl⟩ := h.texts name e hentry
      rfl

theorem append_of_not_writable (hw : d.writable name = false) (text : List Char) :
    append name text d = (.error (.unwritable name), d) := by
  rw [append, hw]
  rfl

theorem write_of_writable (hw : d.writable name = true) (text : List Char) :
    write name text d = (.ok (), d.put name (.file text)) := by
  rw [write, if_pos hw]

theorem write_of_not_writable (hw : d.writable name = false) (text : List Char) :
    write name text d = (.error (.unwritable name), d) := by
  rw [write, hw]
  rfl

theorem rename_of_writable {target : String} {entry : Entry} (hentry : d.entry? name = some entry)
    (hw : d.writable target = true) :
    rename name target d = (.ok (), (d.drop name).put target entry) := by
  rw [rename, hentry]
  exact if_pos hw

theorem rename_of_not_writable {target : String} {entry : Entry}
    (hentry : d.entry? name = some entry) (hw : d.writable target = false) :
    rename name target d = (.error (.unwritable target), d) := by
  rw [rename, hentry]
  exact if_neg (by rw [hw]; exact Bool.false_ne_true)

end Directory

namespace Lines

open Directory

variable {α : Type} {d : Directory}

theorem filing_of_ok {β : Type} {step : Fallible FileError Directory β} {b : β} {d' : Directory}
    (h : step d = (.ok b, d')) : filing step d = (.ok b, d') := by
  rw [filing, h]

theorem filing_of_error {β : Type} {step : Fallible FileError Directory β} {e : FileError}
    {d' : Directory} (h : step d = (.error e, d')) :
    filing step d = (.error (.io e.message), d') := by
  rw [filing, h]

theorem stagingName_ne (name : String) : stagingName name ≠ name := by
  intro h
  -- the staging name is longer by its ending
  have hlength : (name ++ ".tmp").length = name.length := congrArg String.length h
  rw [String.length_append] at hlength
  have htmp : ".tmp".length = 4 := rfl
  omega

/-- An append puts the lines of records behind those of a file, or fails and changes nothing. -/
theorem append_spec (h : d.Plain) (format : RecordFormat α) (file : CollectionFileName)
    (records : List α) :
    ∃ r d', append format file records d = (r, d') ∧ d'.Plain ∧ AgreesBut [file.text] d d' ∧
      (r = .ok () ∧ d'.content file.text = d.content file.text ++ spell format records ∨
        (∃ e, r = .error e) ∧ d.writable file.text = false ∧ d' = d) := by
  rw [append]
  cases hw : d.writable file.text with
  | true =>
      rw [filing_of_ok (h.append_of_writable hw _)]
      refine ⟨_, _, rfl, h.put _ _, agreesBut_put h.present _ _, Or.inl ⟨rfl, ?_⟩⟩
      exact content_of_entry (by rw [entry?_put h.present, if_pos rfl])
  | false =>
      rw [filing_of_error (append_of_not_writable hw _)]
      exact ⟨_, _, rfl, h, .refl _ _, Or.inr ⟨⟨_, rfl⟩, rfl, rfl⟩⟩

/-- The directory with the text of records in the file that is to replace a collection file. -/
def staged (format : RecordFormat α) (file : CollectionFileName) (records : List α)
    (d : Directory) : Directory :=
  d.put (stagingName file.text) (.file (spell format records))

/-- What a rewrite can do: it stops before either of its steps, or takes both. -/
theorem replaceAll_cases (format : RecordFormat α) (file : CollectionFileName)
    (records : List α) (d : Directory) :
    (d.writable (stagingName file.text) = false ∧
        ∃ e, replaceAll format file records d = (.error e, d)) ∨
      (d.writable (stagingName file.text) = true ∧
        (staged format file records d).writable file.text = false ∧
        ∃ e, replaceAll format file records d = (.error e, staged format file records d)) ∨
      (d.writable (stagingName file.text) = true ∧
        (staged format file records d).writable file.text = true ∧
        replaceAll format file records d =
          (.ok (), ((staged format file records d).drop (stagingName file.text)).put file.text
            (.file (spell format records)))) := by
  rw [replaceAll, Fallible.bind_apply]
  cases hstaging : d.writable (stagingName file.text) with
  | false =>
      rw [filing_of_error (write_of_not_writable hstaging _)]
      exact Or.inl ⟨rfl, _, rfl⟩
  | true =>
      have hentry : entry? (staged format file records d) (stagingName file.text) =
          some (.file (spell format records)) := by
        rw [staged, entry?_put (present_of_writable hstaging), if_pos rfl]
      rw [filing_of_ok (write_of_writable hstaging _)]
      cases hfile : (staged format file records d).writable file.text with
      | false => exact Or.inr (Or.inl ⟨rfl, rfl, _,
          filing_of_error (rename_of_not_writable hentry hfile)⟩)
      | true => exact Or.inr (Or.inr ⟨rfl, rfl, filing_of_ok (rename_of_writable hentry hfile)⟩)

/-- A rewrite puts records in the place of all that a file holds, or fails and leaves the file. -/
theorem replaceAll_spec (h : d.Plain) (format : RecordFormat α) (file : CollectionFileName)
    (records : List α) :
    ∃ r d', replaceAll format file records d = (r, d') ∧ d'.Plain ∧
      AgreesBut [stagingName file.text, file.text] d d' ∧
      (r = .ok () ∧ d.rewritable file.text = true ∧
          d'.entry? file.text = some (.file (spell format records)) ∨
        (∃ e, r = .error e) ∧ d.rewritable file.text = false ∧
          d'.entry? file.text = d.entry? file.text) := by
  have hput : (staged format file records d).Plain := h.put _ _
  have hagrees : AgreesBut [stagingName file.text] d (staged format file records d) :=
    agreesBut_put h.present _ _
  have hwritable := h.writable_congr hput hagrees.sealedNames file.text
  rw [rewritable]
  obtain ⟨hstaging, e, hcall⟩ | ⟨hstaging, hfile, e, hcall⟩ | ⟨hstaging, hfile, hcall⟩ :=
    replaceAll_cases format file records d
  -- nothing was written, neither to the file nor beside it
  · refine ⟨_, _, hcall, h, .refl _ _, Or.inr ⟨⟨_, rfl⟩, ?_, rfl⟩⟩
    rw [hstaging, Bool.false_and]
  -- the text beside the file stays, but the file is what it was
  · refine ⟨_, _, hcall, hput, hagrees.mono (by simp), Or.inr ⟨⟨_, rfl⟩, ?_, ?_⟩⟩
    · rw [← hwritable, hfile, Bool.and_false]
    · exact hagrees.entry _ (by simpa using (stagingName_ne file.text).symm)
  · have hdrop := hput.drop (stagingName file.text)
    refine ⟨_, _, hcall, hdrop.put _ _, ?_, Or.inl ⟨rfl, ?_, ?_⟩⟩
    · exact ((hagrees.mono (by simp)).trans ((agreesBut_drop hput _).mono (by simp))).trans
        ((agreesBut_put hdrop.present _ _).mono (by simp))
    · rw [hstaging, ← hwritable, hfile, Bool.and_true]
    · rw [entry?_put hdrop.present, if_pos rfl]

/-- A file that was rewritten holds the text of its records. -/
theorem read_of_replaceAll {d' : Directory} {format : RecordFormat α}
    {file : CollectionFileName} {records : List α}
    (h : replaceAll format file records d = (.ok (), d')) :
    d'.read file.text = .ok (some (spell format records)) := by
  obtain ⟨-, e, hcall⟩ | ⟨-, -, e, hcall⟩ | ⟨hstaging, hfile, hcall⟩ :=
    replaceAll_cases format file records d
  · rw [hcall] at h
    cases h
  · rw [hcall] at h
    cases h
  · rw [hcall] at h
    cases h
    exact read_put (by simpa using present_of_writable hfile) (allows_of_writable hfile) _

/-- A plain file is loaded by reading its text. -/
theorem load_eq (h : d.Plain) (format : RecordFormat α) (layout : Layout)
    {file : CollectionFileName} (ha : allows file.text = true) :
    load format layout file d =
      match read format (d.content file.text) with
      | .ok records => .ok records
      | .error line => .error (.malformedLine (layout.pathOf file) line) := by
  rw [load, Directory.read, if_pos ha, content]
  cases hentry : d.entry? file.text with
  | none => rfl
  | some e =>
      obtain ⟨text, rfl⟩ := h.texts _ e hentry
      rfl

theorem load_eq_ok_iff (h : d.Plain) (format : RecordFormat α) (layout : Layout)
    {file : CollectionFileName} (ha : allows file.text = true) (rs : List α) :
    load format layout file d = .ok rs ↔ read format (d.content file.text) = .ok rs := by
  rw [load_eq h format layout ha]
  cases read format (d.content file.text) <;> simp

/-- Files whose texts read as the same records load the same. -/
theorem SameRecords.load {d' : Directory} (h : d.Plain) (h' : d'.Plain)
    {format : RecordFormat α} (layout : Layout) {file : CollectionFileName}
    (ha : allows file.text = true)
    (hsame : SameRecords (read format (d.content file.text))
      (read format (d'.content file.text))) :
    SameRecords (load format layout file d) (load format layout file d') := by
  rw [load_eq h format layout ha, load_eq h' format layout ha]
  cases hread : read format (d.content file.text) <;>
    cases hread' : read format (d'.content file.text) <;> rw [hread, hread'] at hsame
  · trivial
  · exact hsame
  · exact hsame
  · exact hsame

end Lines

namespace Layout

/-- Collections in files of their own, none of which is the staging file of another. -/
structure Separate (layout : Layout) : Prop where
  distinct : (layout.files.map Name.text).Nodup
  apart : ∀ f ∈ layout.files, ∀ g ∈ layout.files, Lines.stagingName f.text ≠ g.text
  allowed : ∀ f ∈ layout.files,
    Directory.allows f.text = true ∧ Directory.allows (Lines.stagingName f.text) = true

/-- The usual files are separate. -/
theorem separate_ofDataDir (dataDir : String) : (ofDataDir dataDir).Separate := by
  have hfiles : (ofDataDir dataDir).files =
      [eventsFile, snapshotsFile, dispatchedFile, readModelsFile] := rfl
  refine ⟨?_, ?_, ?_⟩ <;> rw [hfiles]
  · decide +kernel
  · decide +kernel
  · decide +kernel

end Layout

end Chronicle
