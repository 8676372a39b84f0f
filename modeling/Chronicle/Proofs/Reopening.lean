import Chronicle.Proofs.EnvelopeLines
import Chronicle.Proofs.EventArchive

set_option autoImplicit false

/-!
# Archives opened anew

What an archive holds that is opened on the files of another. Main statements: an archive opened
on an empty directory is in step with it (`openAt_empty`); if every record reads back as itself,
an archive that is opened anew is the same one (`Synced.openAt_eq_self`); and whatever it reads,
it is in step with its files if those records read back as themselves (`Synced.of_openAt`).
-/

namespace Chronicle

namespace Layout

variable {layout : Layout}

theorem repeated?_eq_none {files : List CollectionFileName}
    (h : (files.map Name.text).Nodup) : repeated? files = none := by
  induction files with
  | nil => rfl
  | cons name rest ih =>
      obtain ⟨hname, hrest⟩ := List.nodup_cons.mp h
      have hnot : rest.contains name = false := by
        rw [← Bool.not_eq_true, List.contains_iff_mem]
        exact fun hmem => hname (List.mem_map_of_mem hmem)
      rw [repeated?, hnot]
      exact ih hrest

/-- Separate files make a layout valid. -/
theorem Separate.validate (h : layout.Separate) : layout.validate = .ok () := by
  rw [Layout.validate, repeated?_eq_none h.distinct]

end Layout

namespace Directory

variable {d : Directory}

/-- A directory that exists need not be made. -/
theorem made_eq (h : d.isPresent = true) : d.made = d := by
  obtain ⟨es, hes⟩ := isPresent_iff.mp h
  rw [made, hes, Option.getD_some, ← hes]

theorem Plain.made_eq (h : d.Plain) : d.made = d := Directory.made_eq h.present

theorem entry?_of_no_entries (h : d.entries = some []) (name : String) : d.entry? name = none := by
  unfold entry?
  rw [h]
  rfl

/-- An empty directory holds no file, and so nothing but text files. -/
theorem plain_of_no_entries (h : d.entries = some []) : d.Plain := by
  refine ⟨by rw [isPresent, h]; rfl, ?_, ?_⟩
  · intro es hes
    rw [h] at hes
    cases hes
    exact OrderedMap.ascending_nil
  · intro name e he
    rw [entry?_of_no_entries h] at he
    cases he

end Directory

/-- What is common to the elements of one list and their images is common to both lists. -/
theorem map_of_map_eq_some {α β γ : Type} {f : α → Option β} {as : List α} {bs : List β}
    (h : as.map f = bs.map some) {g : β → γ} {g' : α → γ}
    (hg : ∀ a b, f a = some b → g b = g' a) : bs.map g = as.map g' := by
  induction as generalizing bs with
  | nil =>
      cases bs with
      | nil => rfl
      | cons b bs => cases h
  | cons a as ih =>
      cases bs with
      | nil => cases h
      | cons b bs =>
          obtain ⟨hb, hbs⟩ := List.cons.inj h
          rw [List.map_cons, List.map_cons, hg a b hb, ih hbs]

namespace EventArchive

open Directory Lines

variable {s s' : EventArchive} {layout : Layout} {d d' : Directory} {l : Ledger}

/-- Every record of the ledger is read back from its line as itself. -/
def ReadsBack (l : Ledger) : Prop := ∀ r ∈ l.allRecords, RecordFormat.envelopes.reread? r = some r

instance (l : Ledger) : Decidable (ReadsBack l) :=
  inferInstanceAs (Decidable (∀ r ∈ l.allRecords, RecordFormat.envelopes.reread? r = some r))

/-- An archive with separate files opens if they can be loaded. -/
theorem openAt_eq (hl : layout.Separate) (ids : IdSupply) (d : Directory) :
    openAt layout ids d =
      match load layout d.made with
      | .error e => (.error e, d.made)
      | .ok ledger => (.ok ⟨layout, d.made, ⟨ledger, ids⟩⟩, d.made) := by
  cases hload : load layout d.made with
  | error e => simp only [openAt, hl.validate, hload]
  | ok ledger => simp only [openAt, hl.validate, hload]

/-- An archive that opens has the directory, made if need be, and holds what is loaded from it. -/
theorem of_openAt (hl : layout.Separate) {ids : IdSupply}
    (hopen : openAt layout ids d = (.ok s, d')) :
    s.layout = layout ∧ s.directory = d.made ∧ load layout d.made = .ok s.memory.ledger := by
  rw [openAt_eq hl] at hopen
  cases hload : load layout d.made with
  | error e =>
      rw [hload] at hopen
      cases hopen
  | ok ledger =>
      rw [hload] at hopen
      cases hopen
      exact ⟨rfl, rfl, rfl⟩

/-- One value for events and one for snapshots. -/
def byKind {α : Type} (event snapshot : α) : EnvelopeKind → α
  | .event => event
  | .snapshot => snapshot

/-- What is loaded are the records of the files of both kinds and the dispatched ids. -/
theorem load_eq_ok_iff_loads :
    load layout d = .ok l ↔
      ∃ (filed : EnvelopeKind → List StoredEnvelope) (marks : List UniqueId),
        (∀ kind, Lines.load .envelopes layout (fileOf layout kind) d = .ok (filed kind)) ∧
        Lines.load .ids layout layout.dispatched d = .ok marks ∧
        l = .ofRecords (filed .event ++ filed .snapshot) marks := by
  constructor
  · intro h
    rw [load] at h
    cases hes : Lines.load .envelopes layout layout.events d with
    | error e =>
        rw [hes] at h
        cases h
    | ok es =>
        cases hss : Lines.load .envelopes layout layout.snapshots d with
        | error e =>
            rw [hes, hss] at h
            cases h
        | ok ss =>
            cases hmarks : Lines.load .ids layout layout.dispatched d with
            | error e =>
                rw [hes, hss, hmarks] at h
                cases h
            | ok marks =>
                rw [hes, hss, hmarks] at h
                cases h
                refine ⟨byKind es ss, marks, fun kind => ?_, rfl, rfl⟩
                cases kind with
                | event => exact hes
                | snapshot => exact hss
  · rintro ⟨filed, marks, hfiled, hmarks, rfl⟩
    have hes := hfiled .event
    have hss := hfiled .snapshot
    simp only [fileOf] at hes hss
    rw [load, hes, hss, hmarks]
    rfl

/-- What the files of a plain directory hold is what is read from each of them. -/
theorem load_eq_ok_iff (hl : layout.Separate) (hd : d.Plain) :
    load layout d = .ok l ↔ ∃ es ss ids,
      read .envelopes (d.content layout.events.text) = .ok es ∧
      read .envelopes (d.content layout.snapshots.text) = .ok ss ∧
      read .ids (d.content layout.dispatched.text) = .ok ids ∧
      l = .ofRecords (es ++ ss) ids := by
  have hallowed : ∀ p : Part, allows (p.file layout).text = true :=
    fun p => (hl.allowed _ (p.file_mem layout)).1
  have hkinds := fun kind => Lines.load_eq_ok_iff hd .envelopes layout (hallowed (.envelopes kind))
  have hdispatched := Lines.load_eq_ok_iff hd .ids layout (hallowed .marks)
  rw [load_eq_ok_iff_loads]
  constructor
  · rintro ⟨filed, marks, hfiled, hmarks, rfl⟩
    exact ⟨_, _, marks, (hkinds .event _).mp (hfiled .event),
      (hkinds .snapshot _).mp (hfiled .snapshot), (hdispatched _).mp hmarks, rfl⟩
  · rintro ⟨es, ss, ids, hes, hss, hids, rfl⟩
    refine ⟨byKind es ss, ids, fun kind => ?_, (hdispatched _).mpr hids, rfl⟩
    cases kind with
    | event => exact (hkinds .event _).mpr hes
    | snapshot => exact (hkinds .snapshot _).mpr hss

/-! ## Opening an empty directory -/

/-- An archive that is opened on an empty directory holds nothing. -/
theorem openAt_empty (hl : layout.Separate) (hd : d.made.entries = some []) (ids : IdSupply) :
    openAt layout ids d = (.ok ⟨layout, d.made, ⟨.empty, ids⟩⟩, d.made) := by
  have hnone : ∀ name, d.made.content name = [] := by
    intro name
    rw [content, entry?_of_no_entries hd]
  have hload : load layout d.made = .ok .empty := by
    refine (load_eq_ok_iff hl (plain_of_no_entries hd)).mpr ⟨[], [], [], ?_, ?_, ?_, rfl⟩
    · rw [hnone]
      rfl
    · rw [hnone]
      rfl
    · rw [hnone]
      rfl
  rw [openAt_eq hl, hload]

/-- An archive on an empty directory is in step with it. -/
theorem synced_empty (hl : layout.Separate) (hd : d.entries = some []) (ids : IdSupply) :
    Synced ⟨layout, d, ⟨.empty, ids⟩⟩ := by
  refine ⟨⟨⟨hl, plain_of_no_entries hd⟩, ⟨_, Ledger.represents_empty⟩⟩, fun p => ?_⟩
  have hnone : d.content (p.file layout).text = [] := by
    rw [content, entry?_of_no_entries hd]
  show p.Mirrored .empty (d.content (p.file layout).text)
  rw [hnone]
  rcases p with (_ | _) | _
  · exact Mirrors.nil
  · exact Mirrors.nil
  · exact Mirrors.nil

/-- The archive that is opened on an empty directory is in step with it. -/
theorem Synced.of_openAt_empty (hl : layout.Separate) (hd : d.made.entries = some [])
    {ids : IdSupply} (hopen : openAt layout ids d = (.ok s, d')) : Synced s := by
  rw [openAt_empty hl hd] at hopen
  cases hopen
  exact synced_empty hl hd ids

/-! ## Opening the files of an archive -/

/-- The ids in the file of dispatched ids are those that the memory holds. -/
theorem Synced.read_dispatched (h : Synced s) :
    ∃ ids, read .ids (s.directory.content s.layout.dispatched.text) = .ok ids ∧
      ids.Perm s.memory.ledger.dispatched := by
  have hmirrored : Mirrors .ids (s.directory.content s.layout.dispatched.text)
      s.memory.ledger.dispatched := h.mirrored .marks
  refine hmirrored.read_of_perm RecordFormat.visible_ids ?_
  have hids : (RecordFormat.ids.reread? : UniqueId → Option UniqueId) = some := by
    funext id
    exact RecordFormat.reread?_ids id
  rw [hids]

theorem ReadsBack.map_reread? (hr : ReadsBack l) (kind : EnvelopeKind) :
    (l.records kind).map RecordFormat.envelopes.reread? = (l.records kind).map some := by
  refine List.map_congr_left fun r hmem => hr r ?_
  cases kind with
  | event => exact List.mem_append_left _ hmem
  | snapshot => exact List.mem_append_right _ hmem

/-- If the records read back as themselves, the file of a kind holds those of that kind. -/
theorem Synced.read_records (h : Synced s) (hr : ReadsBack s.memory.ledger)
    (kind : EnvelopeKind) :
    ∃ rs, read .envelopes (s.directory.content (fileOf s.layout kind).text) = .ok rs ∧
      rs.Perm (s.memory.ledger.records kind) := by
  have hmirrored : Mirrors .envelopes (s.directory.content (fileOf s.layout kind).text)
      (s.memory.ledger.records kind) := h.mirrored (.envelopes kind)
  refine hmirrored.read_of_perm RecordFormat.visible_envelopes ?_
  rw [hr.map_reread?]

/-- If its records read back as themselves, an archive that is opened anew is the same one. -/
theorem Synced.openAt_eq_self (h : Synced s) (hr : ReadsBack s.memory.ledger) :
    openAt s.layout s.memory.ids s.directory = (.ok s, s.directory) := by
  obtain ⟨es, hes, hperm⟩ := h.read_records hr .event
  obtain ⟨ss, hss, hperm'⟩ := h.read_records hr .snapshot
  obtain ⟨ids, hids, hperm''⟩ := h.read_dispatched
  obtain ⟨c, hc⟩ := h.represents
  have hload : load s.layout s.directory = .ok s.memory.ledger := by
    refine (load_eq_ok_iff h.separate h.plain).mpr ⟨es, ss, ids, hes, hss, hids, ?_⟩
    exact (hc.ofRecords_eq (hperm.append hperm') hperm'').symm
  rw [openAt_eq h.separate, h.plain.made_eq, hload]

/-- Whatever an archive reads when it is opened anew, its collections and indices agree on it. -/
theorem Consistent.of_openAt (h : Consistent s) {ids : IdSupply}
    (hopen : openAt s.layout ids s.directory = (.ok s', d')) :
    Consistent s' ∧ s'.layout = s.layout := by
  rw [openAt_eq h.separate, h.plain.made_eq] at hopen
  cases hload : load s.layout s.directory with
  | error e =>
      rw [hload] at hopen
      cases hopen
  | ok l =>
      rw [hload] at hopen
      cases hopen
      obtain ⟨es, ss, marks, -, -, -, rfl⟩ := (load_eq_ok_iff h.separate h.plain).mp hload
      exact ⟨⟨⟨h.separate, h.plain⟩, ⟨_, Ledger.represents_ofRecords _ _⟩⟩, rfl⟩

/-- What the file of a kind reads as has the ids of the records of that kind, and the kind. -/
theorem Synced.ids_of_read (h : Synced s) (kind : EnvelopeKind) {rs : List StoredEnvelope}
    (hread : read .envelopes (s.directory.content (fileOf s.layout kind).text) = .ok rs) :
    (rs.map StoredEnvelope.id).Perm ((s.memory.ledger.records kind).map StoredEnvelope.id) ∧
      ∀ r ∈ rs, r.envelope.kind = kind := by
  obtain ⟨c, hc⟩ := h.represents
  have hmirrored : Mirrors .envelopes (s.directory.content (fileOf s.layout kind).text)
      (s.memory.ledger.records kind) := h.mirrored (.envelopes kind)
  have hperm := (hmirrored.perm_of_read RecordFormat.visible_envelopes hread).symm
  -- record by record, what is read is what the mirrored ones read back as
  obtain ⟨rs', hrs', hperm'⟩ := (congrFun₂ (List.eq_map_comp_perm some) _ rs).mpr hperm
  constructor
  · rw [← map_of_map_eq_some hrs' fun _ _ hr => (RecordFormat.reread?_envelopes_keeps hr).1]
    exact (hperm'.map _).symm
  · intro r hr
    have hkinds := map_of_map_eq_some hrs'
      fun _ _ hr => (RecordFormat.reread?_envelopes_keeps hr).2
    have hkind := List.mem_map_of_mem (f := fun r => r.envelope.kind) (hperm'.mem_iff.mpr hr)
    rw [hkinds] at hkind
    obtain ⟨r', hr', hsame⟩ := List.mem_map.mp hkind
    exact hsame ▸ ((hc.mem_records kind r').mp hr').2

/-- The records that are read are those of the ledger that they make, kind by kind. -/
theorem Synced.records_of_read (h : Synced s) {es ss : List StoredEnvelope}
    (hes : read .envelopes (s.directory.content s.layout.events.text) = .ok es)
    (hss : read .envelopes (s.directory.content s.layout.snapshots.text) = .ok ss)
    (marks : List UniqueId) :
    ((Ledger.ofRecords (es ++ ss) marks).records .event).Perm es ∧
      ((Ledger.ofRecords (es ++ ss) marks).records .snapshot).Perm ss := by
  obtain ⟨c, hc⟩ := h.represents
  obtain ⟨hideses, hkes⟩ := h.ids_of_read .event hes
  obtain ⟨hidsss, hkss⟩ := h.ids_of_read .snapshot hss
  -- no id is read twice, for none is held twice
  have hids : ((es ++ ss).map StoredEnvelope.id).Nodup := by
    rw [List.map_append, (hideses.append hidsss).nodup_iff, ← List.map_append]
    exact hc.nodup_allRecords
  constructor
  · refine (Ledger.records_ofRecords_perm hids marks .event).trans ?_
    rw [List.filter_append, List.filter_eq_self.mpr, List.filter_eq_nil_iff.mpr, List.append_nil]
    · intro r hr
      simp [hkss r hr]
    · intro r hr
      simp [hkes r hr]
  · refine (Ledger.records_ofRecords_perm hids marks .snapshot).trans ?_
    rw [List.filter_append, List.filter_eq_nil_iff.mpr, List.filter_eq_self.mpr, List.nil_append]
    · intro r hr
      simp [hkss r hr]
    · intro r hr
      simp [hkes r hr]

/-- If what it reads reads back as itself, an archive that is opened anew is in step again. -/
theorem Synced.of_openAt (h : Synced s) {ids : IdSupply}
    (hopen : openAt s.layout ids s.directory = (.ok s', d')) (hr : ReadsBack s'.memory.ledger) :
    Synced s' ∧ s'.layout = s.layout := by
  rw [openAt_eq h.separate, h.plain.made_eq] at hopen
  cases hload : load s.layout s.directory with
  | error e =>
      rw [hload] at hopen
      cases hopen
  | ok l =>
      rw [hload] at hopen
      cases hopen
      obtain ⟨es, ss, marks, hes, hss, hmarks, rfl⟩ :=
        (load_eq_ok_iff h.separate h.plain).mp hload
      obtain ⟨hevents, hsnapshots⟩ := h.records_of_read hes hss marks
      refine ⟨⟨⟨⟨h.separate, h.plain⟩, ⟨_, Ledger.represents_ofRecords _ _⟩⟩, fun p => ?_⟩, rfl⟩
      cases p with
      | envelopes kind =>
          have hmirrored : Mirrors .envelopes (s.directory.content (fileOf s.layout kind).text)
              (s.memory.ledger.records kind) := h.mirrored (.envelopes kind)
          obtain ⟨rs, hread, hperm⟩ : ∃ rs,
              read .envelopes (s.directory.content (fileOf s.layout kind).text) = .ok rs ∧
              ((Ledger.ofRecords (es ++ ss) marks).records kind).Perm rs := by
            cases kind with
            | event => exact ⟨es, hes, hevents⟩
            | snapshot => exact ⟨ss, hss, hsnapshots⟩
          -- the file reads as the new records, and those read back as themselves
          have hreread := hmirrored.perm_of_read RecordFormat.visible_envelopes hread
          refine hmirrored.trans (hreread.symm.trans ?_)
          rw [hr.map_reread? kind]
          exact (hperm.map some).symm
      | marks =>
          obtain ⟨c, hc⟩ := h.represents
          obtain ⟨ids', hids', hperm⟩ := h.read_dispatched
          rw [hmarks] at hids'
          cases hids'
          -- ids always read back, so the marks are the same as before
          have hsame : OrderedSet.ofElements marks = s.memory.ledger.dispatched :=
            OrderedSet.ext (OrderedSet.ascending_ofElements _) hc.dispatched
              fun id => OrderedSet.mem_ofElements.trans hperm.mem_iff
          show Mirrors .ids _ (OrderedSet.ofElements marks)
          rw [hsame]
          exact h.mirrored .marks

end EventArchive

end Chronicle
