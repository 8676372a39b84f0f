import Chronicle.Proofs.Appending
import Chronicle.Proofs.Replacement
import Chronicle.Proofs.Rollback

set_option autoImplicit false

/-!
# Archives that go on from files

An archive may be opened on files that other programs have written, and appends to them. Main
statements: if the files end well when it is opened, then however it goes on, its files can be
loaded and end well (`Resumed.resumable`); and what it has then stored or marked with success is
found when it is opened anew (`append_extends`). A file whose last record is not ended by a line
feed is spoilt by the first append (`not_append_extends`).
-/

namespace Chronicle

namespace OrderedSet

theorem mem_of_contains {a : UniqueId} {s : OrderedSet UniqueId} (h : contains a s = true) :
    a ∈ s := by
  induction s with
  | nil => cases h
  | cons b s ih =>
      rw [contains_cons] at h
      cases hcompare : compare a b with
      | lt =>
          rw [hcompare] at h
          cases h
      | eq =>
          obtain rfl : a = b := Std.LawfulEqOrd.eq_of_compare hcompare
          exact List.mem_cons_self
      | gt =>
          rw [hcompare] at h
          exact List.mem_cons_of_mem b (ih h)

/-- Taking away what was just added leaves nothing but what was there. -/
theorem erase_insert_subset (a : UniqueId) (s : OrderedSet UniqueId) :
    erase a (insert a s) ⊆ s := by
  induction s with
  | nil =>
      show erase a [a] ⊆ []
      rw [erase_cons, Std.ReflOrd.compare_self]
      exact List.Subset.refl _
  | cons b s ih =>
      rw [insert_cons]
      cases hcompare : compare a b with
      | lt =>
          dsimp only
          rw [erase_cons, Std.ReflOrd.compare_self]
          exact List.Subset.refl _
      | eq => exact (erase_sublist a (b :: s)).subset
      | gt =>
          dsimp only
          rw [erase_cons, hcompare]
          exact List.cons_subset_cons b ih

end OrderedSet

namespace Directory

variable {d : Directory}

/-- A directory that is made has the files that it had. -/
theorem entry?_made (d : Directory) (name : String) : d.made.entry? name = d.entry? name := by
  obtain ⟨entries, sealedNames⟩ := d
  cases entries <;> rfl

end Directory

namespace EventRequest

open EventArchive

/-- Whatever is written to serve the request reads back from its own line. -/
def Legible (m : MemoryEvents) : EventRequest → Prop
  | store e => RecordFormat.envelopes.reread? ⟨m.ids.next, e⟩ = some ⟨m.ids.next, e⟩
  | replace id r => ReadsBack m.ledger ∧ ReadsBack (m.ledger.replace id r)
  | deleteAll => ReadsBack m.ledger
  | _ => True

end EventRequest

namespace EventArchive

open Directory Lines

variable {s s' : EventArchive} {layout : Layout} {d d' : Directory} {l : Ledger}

/-- The file of a part can be loaded; that of marks has all that are given. -/
def Part.Loads (layout : Layout) (held : List UniqueId) (d : Directory) : Part → Prop
  | .envelopes kind => ∃ rs, Lines.load .envelopes layout (fileOf layout kind) d = .ok rs
  | .marks => ∃ ids, Lines.load .ids layout layout.dispatched d = .ok ids ∧ held ⊆ ids

/-- The file of a part can be loaded, and ends well for an append. -/
structure Part.Resumes (p : Part) (layout : Layout) (held : List UniqueId) (d : Directory) :
    Prop where
  loads : p.Loads layout held d
  ends : Text.EndsBlank (d.content (p.file layout).text)

/-- The files of an archive can be loaded and end well, and have the marks that it holds. -/
structure Resumable (s : EventArchive) : Prop where
  separate : s.layout.Separate
  ordered : s.directory.Ordered
  resumes : ∀ p : Part, p.Resumes s.layout s.memory.ledger.dispatched s.directory

namespace Part

variable {p : Part} {held held' : List UniqueId}

/-- A file that stays goes on to have marks of which there are no more than before. -/
theorem Resumes.congr (h : p.Resumes layout held d)
    (hentry : d'.entry? (p.file layout).text = d.entry? (p.file layout).text)
    (hheld : p = .marks → held' ⊆ held) : p.Resumes layout held' d' := by
  refine ⟨?_, content_congr hentry ▸ h.ends⟩
  cases p with
  | envelopes kind =>
      obtain ⟨rs, hrs⟩ := h.loads
      exact ⟨rs, (Lines.load_congr _ _ hentry).trans hrs⟩
  | marks =>
      obtain ⟨ids, hids, hsubset⟩ := h.loads
      exact ⟨ids, (Lines.load_congr _ _ hentry).trans hids, List.Subset.trans (hheld rfl) hsubset⟩

/-- A file that was written anew ends well, and is loaded if its records read back. -/
theorem Resumes.of_text (hreads : ReadsBack l)
    (hread : d.read (p.file layout).text = .ok (some (p.text l))) :
    p.Resumes layout l.dispatched d := by
  have hcontent : d.content (p.file layout).text = p.text l := content_of_read hread
  constructor
  · cases p with
    | envelopes kind =>
        have hkind : d.read (fileOf layout kind).text =
            .ok (some (spell .envelopes (l.records kind))) := hread
        have hback := (read_spell_eq_ok_iff RecordFormat.visible_envelopes _ _).mpr
          (hreads.map_reread? kind)
        exact ⟨_, by rw [load_of_read hkind, hback]⟩
    | marks =>
        have hmarks : d.read layout.dispatched.text = .ok (some (spell .ids l.dispatched)) := hread
        have hback := (read_spell_eq_ok_iff RecordFormat.visible_ids _ _).mpr
          (List.map_congr_left fun id (_ : id ∈ l.dispatched) => RecordFormat.reread?_ids id)
        exact ⟨_, by rw [load_of_read hmarks, hback], List.Subset.refl _⟩
  · rw [hcontent]
    cases p with
    | envelopes kind => exact endsBlank_append_spell Text.endsBlank_nil _
    | marks => exact endsBlank_append_spell Text.endsBlank_nil _

end Part

/-! ## Files written anew -/

/-- A file is written anew, or stays as it is; no other file changes but the one beside it. -/
theorem replaceAll_outcome {α : Type} (hd : d.Ordered) (format : RecordFormat α)
    (file : CollectionFileName) (records : List α) :
    ∃ r d', replaceAll format file records d = (r, d') ∧
      Framed [stagingName file.text, file.text] d d' ∧
      (r = .ok () ∧ d'.read file.text = .ok (some (spell format records)) ∨
        (∃ e, r = .error e) ∧ d'.entry? file.text = d.entry? file.text) := by
  have hframed := framed_replaceAll hd format file records
  obtain ⟨-, e, hcall⟩ | ⟨-, -, e, hcall⟩ | ⟨-, -, hcall⟩ :=
    replaceAll_cases format file records d
  · rw [hcall] at hframed
    exact ⟨_, _, hcall, hframed, Or.inr ⟨⟨e, rfl⟩, rfl⟩⟩
  · rw [hcall] at hframed
    refine ⟨_, _, hcall, hframed, Or.inr ⟨⟨e, rfl⟩, ?_⟩⟩
    refine (framed_put hd _ _).agrees.entry _ ?_
    rw [List.mem_singleton]
    exact (stagingName_ne file.text).symm
  · rw [hcall] at hframed
    exact ⟨_, _, hcall, hframed, Or.inl ⟨rfl, read_of_replaceAll hcall⟩⟩

/-- A part is written anew, or its file stays as it is. -/
theorem Part.rewrite_cases (p : Part) (hd : s.directory.Ordered) :
    ∃ r d, p.rewrite s = (r, { s with directory := d }) ∧
      Framed [stagingName (p.file s.layout).text, (p.file s.layout).text] s.directory d ∧
      (r = .ok () ∧ d.read (p.file s.layout).text = .ok (some (p.text s.memory.ledger)) ∨
        (∃ e, r = .error e) ∧
          d.entry? (p.file s.layout).text = s.directory.entry? (p.file s.layout).text) := by
  apply p.rewrite_of_replaceAll
  intro α format records htext
  rw [← htext]
  exact replaceAll_outcome hd format _ records

/-- Writing one part leaves the files of the others. -/
theorem entry?_of_framed (hl : layout.Separate) {p q : Part} (hqp : q ≠ p)
    (h : Framed [stagingName (p.file layout).text, (p.file layout).text] d d') :
    d'.entry? (q.file layout).text = d.entry? (q.file layout).text := by
  refine h.agrees.entry _ ?_
  rw [List.mem_cons, List.mem_singleton, not_or]
  exact ⟨(hl.apart _ (p.file_mem _) _ (q.file_mem _)).symm,
    fun htext => hqp (Part.file_injective hl htext)⟩

/-- Whether parts are written anew with success or not: each of them holds what the memory holds,
or its file is what it was, as are those of all other parts. -/
theorem rewriteAll_cases (hl : s.layout.Separate) (hd : s.directory.Ordered) (ps : List Part) :
    ∃ r d, rewriteAll ps s = (r, { s with directory := d }) ∧ d.Ordered ∧
      ∀ q : Part,
        d.entry? (q.file s.layout).text = s.directory.entry? (q.file s.layout).text ∨
        q ∈ ps ∧ d.read (q.file s.layout).text = .ok (some (q.text s.memory.ledger)) := by
  induction ps generalizing s with
  | nil => exact ⟨_, s.directory, rfl, hd, fun _ => Or.inl rfl⟩
  | cons p ps ih =>
      obtain ⟨r, d₁, hcall, hframed, hr⟩ := p.rewrite_cases hd
      rw [rewriteAll, Fallible.bind_apply, hcall]
      rcases hr with ⟨rfl, hread⟩ | ⟨⟨e, rfl⟩, hentry⟩
      · obtain ⟨r, d₂, hrest, hordered, hparts⟩ :=
          ih (s := { s with directory := d₁ }) hl hframed.ordered
        refine ⟨r, d₂, hrest, hordered, fun q => ?_⟩
        rcases hparts q with hkept | ⟨hmem, hwritten⟩
        · by_cases hq : q = p
          · subst hq
            refine Or.inr ⟨List.mem_cons_self, ?_⟩
            rw [← hread, Directory.read, Directory.read, hkept]
          · exact Or.inl (hkept.trans (entry?_of_framed hl hq hframed))
        · exact Or.inr ⟨List.mem_cons_of_mem p hmem, hwritten⟩
      · refine ⟨_, d₁, rfl, hframed.ordered, fun q => Or.inl ?_⟩
        by_cases hq : q = p
        · rw [hq]
          exact hentry
        · exact entry?_of_framed hl hq hframed

/-- The marks are written last: if anything is refused, their file is what it was. -/
theorem entry?_marks_of_error (hl : s.layout.Separate) (hd : s.directory.Ordered)
    {kinds : List EnvelopeKind} {withDispatched : Bool} {e : RegistryError}
    (h : rewriteAll (parts kinds withDispatched) s = (.error e, s')) :
    s'.directory.entry? s.layout.dispatched.text =
      s.directory.entry? s.layout.dispatched.text := by
  have hnot : Part.marks ∉ kinds.map Part.envelopes := by simp
  obtain ⟨r, d₁, hcall, hordered, hparts⟩ := rewriteAll_cases hl hd (kinds.map Part.envelopes)
  have hkept : d₁.entry? s.layout.dispatched.text = s.directory.entry? s.layout.dispatched.text :=
    (hparts .marks).resolve_right fun hmem => hnot hmem.1
  rw [parts, rewriteAll_append, Fallible.bind_apply, hcall] at h
  cases r with
  | error e' =>
      cases h
      exact hkept
  | ok u =>
      cases withDispatched with
      | false => cases h
      | true =>
          obtain ⟨r, d₂, hmarks, -, hr⟩ :=
            Part.rewrite_cases (s := { s with directory := d₁ }) .marks hordered
          dsimp only at h
          rw [if_pos rfl, rewriteAll, Fallible.bind_apply, hmarks] at h
          rcases hr with ⟨rfl, -⟩ | ⟨⟨e', rfl⟩, hentry⟩
          · cases h
          · cases h
            exact hentry.trans hkept

/-! ## What keeps an archive resumable -/

/-- What is restored from records has no others. -/
theorem ReadsBack.ofRecords (h : ReadsBack l) (marks : List UniqueId) :
    ReadsBack (.ofRecords l.allRecords marks) := by
  intro r hr
  have hrepresents := Ledger.represents_ofRecords l.allRecords marks
  exact h r (Contents.mem_of_ofRecords ((hrepresents.mem_allRecords r).mp hr))

/-- What a commit does, step by step. -/
theorem commit_cases {α : Type} (kinds : List EnvelopeKind) (withDispatched : Bool)
    {change : Call MemoryEvents α} {answer : α} {m : MemoryEvents}
    (hchange : change s.memory = (.ok answer, m)) :
    commit kinds withDispatched change s =
      match rewriteAll (parts kinds withDispatched) { s with memory := m } with
      | (.ok _, t) => (.ok answer, t)
      | (.error e, t) =>
          (.error e, (rewriteAll (parts kinds withDispatched)
            { t with memory.ledger :=
                .ofRecords s.memory.ledger.allRecords s.memory.ledger.dispatched }).2) := by
  rw [commit, persistAll_eq]
  simp only [Fallible.bind_apply, Fallible.read, inMemory, Fallible.within, hchange,
    Fallible.outcome]
  rcases rewriteAll (parts kinds withDispatched) { s with memory := m } with ⟨_ | _, t⟩ <;> rfl

/-- A commit of a change that adds no mark leaves the files so that they can be loaded. -/
theorem Resumable.commit {α : Type} (h : Resumable s) (kinds : List EnvelopeKind)
    (withDispatched : Bool) {change : Call MemoryEvents α} {answer : α} {m : MemoryEvents}
    (hchange : change s.memory = (.ok answer, m)) (hbefore : ReadsBack s.memory.ledger)
    (hafter : ReadsBack m.ledger) (hmarks : m.ledger.dispatched ⊆ s.memory.ledger.dispatched) :
    Resumable (EventArchive.commit kinds withDispatched change s).2 := by
  obtain ⟨r, d₁, hcall, hordered, hparts⟩ := rewriteAll_cases (s := { s with memory := m })
    h.separate h.ordered (parts kinds withDispatched)
  rw [commit_cases kinds withDispatched hchange, hcall]
  cases r with
  | ok u =>
      refine ⟨h.separate, hordered, fun p => ?_⟩
      rcases hparts p with hkept | ⟨-, hwritten⟩
      · exact (h.resumes p).congr hkept fun _ => hmarks
      · exact .of_text hafter hwritten
  | error e =>
      obtain ⟨r', d₂, hcall', hordered', hparts'⟩ := rewriteAll_cases
        (s := ⟨s.layout, d₁, ⟨.ofRecords s.memory.ledger.allRecords s.memory.ledger.dispatched,
          m.ids⟩⟩) h.separate hordered (parts kinds withDispatched)
      dsimp only
      rw [hcall']
      refine ⟨h.separate, hordered', fun p => ?_⟩
      rcases hparts' p with hkept' | ⟨-, hwritten'⟩
      · cases p with
        | envelopes kind =>
            rcases hparts (.envelopes kind) with hkept | ⟨-, hwritten⟩
            · exact (h.resumes _).congr (hkept'.trans hkept) nofun
            · exact (Part.Resumes.of_text hafter hwritten).congr hkept' nofun
        | marks =>
            have hkept := entry?_marks_of_error (s := { s with memory := m }) h.separate h.ordered
              hcall
            refine (h.resumes .marks).congr (hkept'.trans hkept) fun _ id hid => ?_
            exact OrderedSet.mem_ofElements.mp hid
      · exact .of_text (hbefore.ofRecords _) hwritten'

/-- What an append that succeeds adds to a file that can be loaded. -/
theorem Resumable.of_append (h : Resumable s) {p : Part} {m : MemoryEvents}
    (hordered : d.Ordered)
    (hother : ∀ q, q ≠ p →
      d.entry? (q.file s.layout).text = s.directory.entry? (q.file s.layout).text)
    (hp : p.Resumes s.layout m.ledger.dispatched d)
    (hmarks : p ≠ .marks → m.ledger.dispatched ⊆ s.memory.ledger.dispatched) :
    Resumable ⟨s.layout, d, m⟩ := by
  refine ⟨h.separate, hordered, fun q => ?_⟩
  by_cases hq : q = p
  · rw [hq]
    exact hp
  · refine (h.resumes q).congr (hother q hq) fun hmark => hmarks ?_
    rintro rfl
    exact hq hmark

/-- An append succeeds and changes its file only, or fails and changes nothing. -/
theorem append_outcome {α : Type} (hd : d.Ordered) (format : RecordFormat α)
    (file : CollectionFileName) (new : List α) :
    (∃ d', append format file new d = (.ok (), d') ∧ Framed [file.text] d d') ∨
      ∃ e, append format file new d = (.error e, d) := by
  have hframed := Directory.framed_append hd file.text (spell format new)
  cases hw : d.writable file.text with
  | true =>
      refine Or.inl ⟨_, filing_of_ok ?_, hframed⟩
      unfold Directory.append
      rw [if_pos hw]
      split <;> rfl
  | false => exact Or.inr ⟨_, filing_of_error (append_of_not_writable hw _)⟩

/-- What a store does, step by step. -/
theorem store_cases (hd : s.directory.Ordered) (e : Envelope) :
    (∃ d, append .envelopes (fileOf s.layout e.kind) [⟨s.memory.ids.next, e⟩] s.directory =
        (.ok (), d) ∧ Framed [(fileOf s.layout e.kind).text] s.directory d ∧
        store e s = (.ok s.memory.ids.next,
          ⟨s.layout, d, ⟨s.memory.ledger.insert s.memory.ids.next e, s.memory.ids.advance⟩⟩)) ∨
      ∃ error, store e s = (.error error, ⟨s.layout, s.directory,
        ⟨(s.memory.ledger.insert s.memory.ids.next e).replace s.memory.ids.next none,
          s.memory.ids⟩⟩) := by
  rcases append_outcome hd .envelopes (fileOf s.layout e.kind) [⟨s.memory.ids.next, e⟩] with
    ⟨d, hcall, hframed⟩ | ⟨error, hcall⟩
  · refine Or.inl ⟨d, hcall, hframed, ?_⟩
    simp only [store, onFiles, Fallible.within, hcall]
  · refine Or.inr ⟨error, ?_⟩
    simp only [store, onFiles, Fallible.within, hcall]

/-- What an append to the file of a part leaves of the others. -/
theorem entry?_of_appended (hl : layout.Separate) {p q : Part} (hqp : q ≠ p)
    (h : Framed [(p.file layout).text] d d') :
    d'.entry? (q.file layout).text = d.entry? (q.file layout).text :=
  entry?_of_framed hl hqp (h.mono (by simp))

theorem Resumable.store (h : Resumable s) {e : Envelope}
    (hlegible : (EventRequest.store e).Legible s.memory) :
    Resumable (EventArchive.store e s).2 := by
  rcases store_cases h.ordered e with ⟨d, happend, hframed, hcall⟩ | ⟨error, hcall⟩
  · rw [hcall]
    obtain ⟨⟨rs, hrs⟩, hends⟩ := h.resumes (.envelopes e.kind)
    have hload := load_of_append RecordFormat.visible_envelopes hrs (fun _ => hends)
      (List.forall_mem_singleton.mpr hlegible) happend
    refine h.of_append (p := .envelopes e.kind) hframed.ordered
      (fun q hq => entry?_of_appended h.separate hq hframed)
      ⟨⟨_, hload⟩, endsBlank_of_append hrs hends happend⟩ fun _ => ?_
    rw [Ledger.dispatched_insert]
    exact List.Subset.refl _
  · rw [hcall]
    refine ⟨h.separate, h.ordered, fun p => (h.resumes p).congr rfl fun _ => ?_⟩
    rw [Ledger.dispatched_replace, Ledger.dispatched_insert]
    exact List.Subset.refl _

/-- A mark that is held already changes nothing in the files. -/
theorem markDispatched_of_isDispatched {id : UniqueId}
    (hid : s.memory.ledger.isDispatched id = true) :
    markDispatched id s =
      (.ok false, ⟨s.layout, s.directory, ⟨s.memory.ledger.mark id, s.memory.ids⟩⟩) := by
  have hmemory : MemoryEvents.markDispatched id s.memory =
      (.ok false, ⟨s.memory.ledger.mark id, s.memory.ids⟩) := by
    simp [MemoryEvents.markDispatched, MemoryEvents.onLedger, hid]
  simp only [markDispatched, Fallible.bind_apply, inMemory, Fallible.within, hmemory]
  rfl

/-- What marking an id does: it is held already, or put behind the marks in the file, or the file
refuses it. -/
theorem markDispatched_cases (hd : s.directory.Ordered) (id : UniqueId) :
    s.memory.ledger.isDispatched id = true ∧
        markDispatched id s =
          (.ok false, ⟨s.layout, s.directory, ⟨s.memory.ledger.mark id, s.memory.ids⟩⟩) ∨
      (∃ d, append .ids s.layout.dispatched [id] s.directory = (.ok (), d) ∧
        Framed [s.layout.dispatched.text] s.directory d ∧
        markDispatched id s =
          (.ok true, ⟨s.layout, d, ⟨s.memory.ledger.mark id, s.memory.ids⟩⟩)) ∨
      ∃ e, markDispatched id s = (.error e,
        ⟨s.layout, s.directory, ⟨(s.memory.ledger.mark id).unmark id, s.memory.ids⟩⟩) := by
  cases hid : s.memory.ledger.isDispatched id with
  | true => exact Or.inl ⟨rfl, markDispatched_of_isDispatched hid⟩
  | false =>
      rcases append_outcome hd .ids s.layout.dispatched [id] with
        ⟨d, hcall, hframed⟩ | ⟨e, hcall⟩
      · exact Or.inr (Or.inl ⟨d, hcall, hframed, markDispatched_eq hid hcall⟩)
      · exact Or.inr (Or.inr ⟨e, markDispatched_eq hid hcall⟩)

theorem Resumable.markDispatched (h : Resumable s) (id : UniqueId) :
    Resumable (EventArchive.markDispatched id s).2 := by
  rcases markDispatched_cases h.ordered id with
    ⟨hid, hcall⟩ | ⟨d, happend, hframed, hcall⟩ | ⟨e, hcall⟩
  · rw [hcall]
    refine ⟨h.separate, h.ordered, fun p => (h.resumes p).congr rfl fun _ id' hid' => ?_⟩
    rcases OrderedSet.mem_insert.mp hid' with rfl | hmem
    · exact OrderedSet.mem_of_contains hid
    · exact hmem
  · rw [hcall]
    obtain ⟨⟨ids, hids, hsubset⟩, hends⟩ := h.resumes .marks
    have hload := load_of_append RecordFormat.visible_ids hids (fun _ => hends)
      (List.forall_mem_singleton.mpr (RecordFormat.reread?_ids id)) happend
    refine h.of_append (p := .marks) hframed.ordered
      (fun q hq => entry?_of_appended h.separate hq hframed)
      ⟨⟨_, hload, fun id' hid' => ?_⟩, endsBlank_of_append hids hends happend⟩
      fun hne => absurd rfl hne
    rw [List.mem_append, List.mem_singleton]
    rcases OrderedSet.mem_insert.mp hid' with rfl | hmem
    · exact Or.inr rfl
    · exact Or.inl (hsubset hmem)
  · rw [hcall]
    refine ⟨h.separate, h.ordered, fun p => (h.resumes p).congr rfl fun _ => ?_⟩
    exact OrderedSet.erase_insert_subset id _

theorem Resumable.replace (h : Resumable s) {id : UniqueId} {r : Option Envelope}
    (hlegible : (EventRequest.replace id r).Legible s.memory) :
    Resumable (EventArchive.replace id r s).2 := by
  rw [EventArchive.replace, Fallible.bind_apply, Fallible.read]
  dsimp only
  cases s.memory.ledger.locate id with
  | none => exact h
  | some old =>
      refine h.commit _ _ rfl hlegible.1 hlegible.2 ?_
      show (s.memory.ledger.replace id r).dispatched ⊆ _
      rw [Ledger.dispatched_replace]
      exact List.Subset.refl _

theorem Resumable.deleteAll (h : Resumable s) (hlegible : EventRequest.deleteAll.Legible s.memory) :
    Resumable (EventArchive.deleteAll s).2 := by
  refine h.commit _ _ rfl hlegible ?_ (List.nil_subset _)
  intro r hr
  cases hr

theorem Resumable.sealing (h : Resumable s) (names : List String) :
    Resumable (s.sealing names) :=
  ⟨h.separate, h.ordered, fun p => (h.resumes p).congr rfl fun _ => List.Subset.refl _⟩

/-- Whatever is asked of it and whatever files refuse to be written, an archive whose files can be
loaded and end well stays so, if what it writes reads back. -/
theorem Resumable.ask (h : Resumable s) (names : List String) {request : EventRequest}
    (hlegible : request.Legible s.memory) :
    Resumable (request.ask registry (s.sealing names)).2 := by
  have hsealed := h.sealing names
  cases request with
  | store e =>
      rw [EventRequest.ask, Fallible.map_apply]
      exact hsealed.store hlegible
  | markDispatched id =>
      rw [EventRequest.ask, Fallible.map_apply]
      exact hsealed.markDispatched id
  | replace id r =>
      rw [EventRequest.ask, Fallible.map_apply]
      exact hsealed.replace hlegible
  | deleteAll =>
      rw [EventRequest.ask, Fallible.map_apply]
      exact hsealed.deleteAll hlegible
  | query q order limit => exact hsealed
  | latestSnapshot q => exact hsealed
  | count q => exact hsealed

/-! ## Opening, going on, and opening anew -/

/-- What is loaded does not depend on whether the directory is made. -/
theorem load_made {α : Type} (format : RecordFormat α) (layout : Layout)
    (file : CollectionFileName) (d : Directory) :
    Lines.load format layout file d.made = Lines.load format layout file d :=
  Lines.load_congr _ _ (entry?_made d file.text)

/-- An archive that opens on files that end well is resumable. -/
theorem Resumable.of_openAt (hl : layout.Separate) (hd : d.Ordered) {ids : IdSupply}
    (hopen : openAt layout ids d = (.ok s, d'))
    (hends : ∀ p : Part, Text.EndsBlank (d.content (p.file layout).text)) : Resumable s := by
  obtain ⟨rfl, hdirectory, hload⟩ := EventArchive.of_openAt hl hopen
  obtain ⟨filed, marks, hfiled, hmarks, hledger⟩ := load_eq_ok_iff_loads.mp hload
  refine ⟨hl, hdirectory ▸ ordered_made hd, fun p => ⟨?_, ?_⟩⟩
  · rw [hdirectory, hledger]
    cases p with
    | envelopes kind => exact ⟨_, hfiled kind⟩
    | marks => exact ⟨_, hmarks, fun id hid => OrderedSet.mem_ofElements.mp hid⟩
  · rw [hdirectory, content_congr (entry?_made d _)]
    exact hends p

/-- A resumable archive can be opened anew, and then holds what is loaded from its files. -/
theorem Resumable.openAt_eq (h : Resumable s) (ids : IdSupply) :
    ∃ (filed : EnvelopeKind → List StoredEnvelope) (marks : List UniqueId),
      (∀ kind, Lines.load .envelopes s.layout (fileOf s.layout kind) s.directory =
        .ok (filed kind)) ∧
      Lines.load .ids s.layout s.layout.dispatched s.directory = .ok marks ∧
      s.memory.ledger.dispatched ⊆ marks ∧
      openAt s.layout ids s.directory =
        (.ok ⟨s.layout, s.directory.made,
          ⟨.ofRecords (filed .event ++ filed .snapshot) marks, ids⟩⟩, s.directory.made) := by
  choose filed hfiled using fun kind => (h.resumes (.envelopes kind)).loads
  obtain ⟨marks, hmarks, hsubset⟩ := (h.resumes .marks).loads
  have hload : load s.layout s.directory.made =
      .ok (.ofRecords (filed .event ++ filed .snapshot) marks) := by
    refine load_eq_ok_iff_loads.mpr ⟨filed, marks, fun kind => ?_, ?_, rfl⟩
    · rw [load_made]
      exact hfiled kind
    · rw [load_made]
      exact hmarks
  refine ⟨filed, marks, hfiled, hmarks, hsubset, ?_⟩
  rw [EventArchive.openAt_eq h.separate, hload]

/--
The archives that come from one that was opened on files that end well: requests are served while
any files refuse to be written, as far as what is written for them reads back, and archives are
closed and opened anew.
-/
inductive Resumed : EventArchive → Prop
  | opened {layout : Layout} {ids : IdSupply} {d d' : Directory} {s : EventArchive}
      (separate : layout.Separate) (ordered : d.Ordered)
      (hopen : openAt layout ids d = (.ok s, d'))
      (ends : ∀ p : Part, Text.EndsBlank (d.content (p.file layout).text)) : Resumed s
  | asked {s : EventArchive} (h : Resumed s) (names : List String) (request : EventRequest)
      (legible : request.Legible s.memory) : Resumed (request.ask registry (s.sealing names)).2
  | reopened {s s' : EventArchive} {d' : Directory} (h : Resumed s) (ids : IdSupply)
      (hopen : openAt s.layout ids s.directory = (.ok s', d')) : Resumed s'

/-- However such an archive goes on, its files can be loaded and end well. -/
theorem Resumed.resumable (h : Resumed s) : Resumable s := by
  induction h with
  | opened separate ordered hopen ends => exact .of_openAt separate ordered hopen ends
  | asked _ names request legible ih => exact ih.ask names legible
  | reopened _ ids hopen ih =>
      exact .of_openAt ih.separate ih.ordered hopen fun p => (ih.resumes p).ends

/-- An envelope that was stored under an id that the files do not have is found under it. -/
theorem Resumable.find?_of_store (h : Resumable s) {e : Envelope} {id : UniqueId}
    (hlegible : (EventRequest.store e).Legible s.memory)
    (hfresh : ∀ kind rs, Lines.load .envelopes s.layout (fileOf s.layout kind) s.directory =
      .ok rs → ∀ r ∈ rs, r.id ≠ s.memory.ids.next)
    (hstore : EventArchive.store e s = (.ok id, s')) (ids : IdSupply) :
    ∃ t d, openAt s'.layout ids s'.directory = (.ok t, d) ∧
      t.memory.ledger.find? id = some e := by
  have hresumable := h.store hlegible
  rcases store_cases h.ordered e with ⟨d, happend, hframed, hcall⟩ | ⟨error, hcall⟩
  · rw [hcall] at hstore hresumable
    cases hstore
    obtain ⟨filed, marks, hfiled, -, -, hopen⟩ := hresumable.openAt_eq ids
    have hown : Contents.ofRecords (filed e.kind) s.memory.ids.next = some e := by
      obtain ⟨⟨rs, hrs⟩, hends⟩ := h.resumes (.envelopes e.kind)
      have hload := load_of_append RecordFormat.visible_envelopes hrs (fun _ => hends)
        (List.forall_mem_singleton.mpr hlegible) happend
      rw [Except.ok.inj ((hfiled e.kind).symm.trans hload), Contents.ofRecords_concat]
      exact Function.update_self _ _ _
    have hother : ∀ kind, kind ≠ e.kind →
        Contents.ofRecords (filed kind) s.memory.ids.next = none := by
      intro kind hkind
      have hentry := entry?_of_appended h.separate (p := .envelopes e.kind)
        (q := .envelopes kind) (fun heq => hkind (Part.envelopes.inj heq)) hframed
      have hbefore := (Lines.load_congr RecordFormat.envelopes s.layout hentry).symm.trans
        (hfiled kind)
      refine Option.eq_none_iff_forall_ne_some.mpr fun e' he' => ?_
      exact hfresh kind _ hbefore _ (Contents.mem_of_ofRecords he') rfl
    refine ⟨_, _, hopen, ?_⟩
    show (Ledger.ofRecords (filed .event ++ filed .snapshot) marks).find? _ = _
    rw [(Ledger.represents_ofRecords _ _).find?_eq, Contents.ofRecords_append]
    -- the file of snapshots is read last
    cases hkind : e.kind with
    | event =>
        rw [hkind] at hown
        rw [hother .snapshot (by rw [hkind]; exact nofun), Option.none_or, hown]
    | snapshot =>
        rw [hkind] at hown
        rw [hown, Option.some_or]
  · rw [hcall] at hstore
    cases hstore

/-- An id that was marked, now or before, is found marked. -/
theorem Resumable.isDispatched_of_markDispatched (h : Resumable s) {id : UniqueId} {b : Bool}
    (hmark : EventArchive.markDispatched id s = (.ok b, s')) (ids : IdSupply) :
    ∃ t d, openAt s'.layout ids s'.directory = (.ok t, d) ∧
      t.memory.ledger.isDispatched id = true := by
  have hresumable := h.markDispatched id
  have hheld : id ∈ s'.memory.ledger.dispatched := by
    rcases markDispatched_cases h.ordered id with
      ⟨-, hcall⟩ | ⟨d, -, -, hcall⟩ | ⟨e, hcall⟩
    · rw [hcall] at hmark
      cases hmark
      exact OrderedSet.mem_insert.mpr (Or.inl rfl)
    · rw [hcall] at hmark
      cases hmark
      exact OrderedSet.mem_insert.mpr (Or.inl rfl)
    · rw [hcall] at hmark
      cases hmark
  rw [hmark] at hresumable
  obtain ⟨filed, marks, -, -, hsubset, hopen⟩ := hresumable.openAt_eq ids
  refine ⟨_, _, hopen, ?_⟩
  exact (OrderedSet.contains_iff_mem (OrderedSet.ascending_ofElements marks)).mpr
    (OrderedSet.mem_ofElements.mpr (hsubset hheld))

/--
A file that is loaded, and ends well if anything is appended, is loaded after an append with the
records that it had and then those appended, as far as these read back from their own lines. And
whatever an archive was asked that was opened on files that end well: what it stores under an id
that the files do not have, or marks, with success, is found when it is opened anew.
-/
theorem append_extends (c : Holding) (layout : Layout) (d d' : Directory) (rs new : List c.Record)
    (s : EventArchive) (names : List String) (ids : IdSupply) :
    (c.load layout d = .ok rs →
      (new ≠ [] → Text.EndsBlank (d.content (c.file layout).text)) →
      (∀ r ∈ new, c.format.reread? r = some r) →
      append c.format (c.file layout) new d = (.ok (), d') →
      c.load layout d' = .ok (rs ++ new)) ∧
    (Resumed s →
      (∀ (e : Envelope) (id : UniqueId) (s' : EventArchive),
        registry.store e (s.sealing names) = (.ok id, s') →
        (EventRequest.store e).Legible s.memory →
        (∀ kind rs, Lines.load .envelopes s.layout (fileOf s.layout kind) s.directory = .ok rs →
          ∀ r ∈ rs, r.id ≠ s.memory.ids.next) →
        ∃ t d, openAt s'.layout ids s'.directory = (.ok t, d) ∧
          t.memory.ledger.find? id = some e) ∧
      ∀ (id : UniqueId) (b : Bool) (s' : EventArchive),
        registry.markDispatched id (s.sealing names) = (.ok b, s') →
        ∃ t d, openAt s'.layout ids s'.directory = (.ok t, d) ∧
          t.memory.ledger.isDispatched id = true) := by
  constructor
  · intro hload hends hnew happend
    exact load_of_append c.visible hload hends hnew happend
  · intro h
    have hsealed := h.resumable.sealing names
    constructor
    · intro e id s' hstore hlegible hfresh
      exact hsealed.find?_of_store hlegible hfresh hstore ids
    · intro id b s' hmark
      exact hsealed.isDispatched_of_markDispatched hmark ids

/-! ## Files that end in different ways -/

/-- The record of a purchase. -/
def purchase (n : Nat) : StoredEnvelope := ⟨.ofNat n, MemoryEvents.cartEvent⟩

theorem reread?_purchase :
    RecordFormat.envelopes.reread? (purchase 2) = some (purchase 2) := by
  decide +kernel

/-- The line of such a record, without its end. -/
def purchaseLine (n : Nat) : List Char := (RecordFormat.envelopes.encode (purchase n)).spell

/-- The line of a mark, without its end. -/
def markLine (n : Nat) : List Char := (RecordFormat.ids.encode (.ofNat n)).spell

/-- The directory with the given texts in the files of events and of marks. -/
def filesOf (events marks : List Char) : Directory :=
  ((⟨some [], []⟩ : Directory).put Layout.eventsFile.text (.file events)).put
    Layout.dispatchedFile.text (.file marks)

theorem plain_filesOf (events marks : List Char) : (filesOf events marks).Plain :=
  ((plain_of_no_entries rfl).put _ _).put _ _

theorem content_filesOf (events marks : List Char) (p : Part) :
    (filesOf events marks).content (p.file (.ofDataDir "data")).text =
      match p with
      | .envelopes kind => byKind events [] kind
      | .marks => marks := by
  unfold content
  rw [filesOf, entry?_put rfl, entry?_put rfl]
  rcases p with (_ | _) | _ <;> rfl

theorem load_filesOf {events marks : List Char} {rs : List StoredEnvelope} {ids : List UniqueId}
    (hevents : Lines.read .envelopes events = .ok rs) (hmarks : Lines.read .ids marks = .ok ids) :
    (∀ kind, Lines.load .envelopes (.ofDataDir "data") (fileOf (.ofDataDir "data") kind)
        (filesOf events marks) = .ok (byKind rs [] kind)) ∧
      Lines.load .ids (.ofDataDir "data") Layout.dispatchedFile (filesOf events marks) =
        .ok ids := by
  have hl := Layout.separate_ofDataDir "data"
  have hplain := plain_filesOf events marks
  have hallowed : ∀ p : Part, allows (p.file (.ofDataDir "data")).text = true :=
    fun p => (hl.allowed _ (p.file_mem _)).1
  constructor
  · intro kind
    refine (Lines.load_eq_ok_iff hplain .envelopes _ (hallowed (.envelopes kind)) _).mpr ?_
    rw [content_filesOf events marks (.envelopes kind)]
    cases kind with
    | event => exact hevents
    | snapshot => rfl
  · refine (Lines.load_eq_ok_iff hplain .ids _ (hallowed .marks) _).mpr ?_
    rw [content_filesOf events marks .marks]
    exact hmarks

theorem append_filesOf (events marks : List Char) (new : List StoredEnvelope) :
    append .envelopes Layout.eventsFile new (filesOf events marks) =
      (.ok (), (append .envelopes Layout.eventsFile new (filesOf events marks)).2) := by
  have hplain := plain_filesOf events marks
  have hw : (filesOf events marks).writable Layout.eventsFile.text = true :=
    hplain.writable_of_unsealed rfl (by decide +kernel)
  rw [Lines.append, filing_of_ok (hplain.append_of_writable hw _)]

/-- A line behind a blank one, with a carriage return and blanks behind it. -/
def loosely (line : List Char) : List Char := '\n' :: (line ++ ['\r', '\n', ' ', '\t'])

theorem endsBlank_loosely (line : List Char) : Text.EndsBlank (loosely line) := by
  have hloosely : loosely line = '\n' :: (line ++ ['\r']) ++ '\n' :: [' ', '\t'] := by
    simp [loosely]
  rw [hloosely]
  exact Text.endsBlank_feed_append _ (by simp [Json.isSpace])

/-- The files of a purchase that is marked, written loosely. -/
def looseFiles : Directory := filesOf (loosely (purchaseLine 1)) (loosely (markLine 1))

/-- The archive that is opened there. -/
def looseArchive : EventArchive :=
  ⟨.ofDataDir "data", looseFiles, ⟨.ofRecords [purchase 1] [.ofNat 1], ⟨.ofNat, 2⟩⟩⟩

theorem load_looseFiles :
    (∀ kind, Lines.load .envelopes (.ofDataDir "data") (fileOf (.ofDataDir "data") kind)
        looseFiles = .ok (byKind [purchase 1] [] kind)) ∧
      Lines.load .ids (.ofDataDir "data") Layout.dispatchedFile looseFiles = .ok [.ofNat 1] :=
  load_filesOf (readAll_of_filled 1 (by decide +kernel)) (readAll_of_filled 1 (by decide +kernel))

theorem resumed_looseArchive : Resumed looseArchive := by
  have hl := Layout.separate_ofDataDir "data"
  have hplain : looseFiles.Plain := plain_filesOf _ _
  have hload : load (.ofDataDir "data") looseFiles = .ok (.ofRecords [purchase 1] [.ofNat 1]) :=
    load_eq_ok_iff_loads.mpr ⟨_, _, load_looseFiles.1, load_looseFiles.2, rfl⟩
  have hopen : openAt (.ofDataDir "data") ⟨.ofNat, 2⟩ looseFiles =
      (.ok looseArchive, looseFiles) := by
    rw [EventArchive.openAt_eq hl, hplain.made_eq, hload]
    rfl
  refine .opened hl hplain.ascending hopen fun p => ?_
  rw [looseFiles, content_filesOf]
  rcases p with (_ | _) | _
  · exact endsBlank_loosely _
  · exact Text.endsBlank_nil
  · exact endsBlank_loosely _

theorem consistent_looseArchive : Consistent looseArchive :=
  ⟨⟨Layout.separate_ofDataDir _, plain_filesOf _ _⟩, ⟨_, Ledger.represents_ofRecords _ _⟩⟩

/-- Blank lines, carriage returns and blanks at the end do no harm. -/
theorem append_extends_looseFiles :
    (Holding.envelopes .event).load (.ofDataDir "data")
        (append .envelopes Layout.eventsFile [purchase 2] looseFiles).2 =
          .ok [purchase 1, purchase 2] ∧
      (∃ t d, openAt (.ofDataDir "data") ⟨.ofNat, 3⟩
          (registry.store MemoryEvents.cartEvent looseArchive).2.directory = (.ok t, d) ∧
        t.memory.ledger.find? (.ofNat 2) = some MemoryEvents.cartEvent) ∧
      ∃ t d, openAt (.ofDataDir "data") ⟨.ofNat, 3⟩
          (registry.markDispatched (.ofNat 2) looseArchive).2.directory = (.ok t, d) ∧
        t.memory.ledger.isDispatched (.ofNat 2) = true := by
  obtain ⟨hfile, harchive⟩ := append_extends (.envelopes .event) (.ofDataDir "data") looseFiles
    (append .envelopes Layout.eventsFile [purchase 2] looseFiles).2 [purchase 1] [purchase 2]
    looseArchive [] ⟨.ofNat, 3⟩
  obtain ⟨hstored, hmarked⟩ := harchive resumed_looseArchive
  have hsealing : looseArchive.sealing [] = looseArchive := rfl
  rw [hsealing] at hstored hmarked
  refine ⟨?_, ?_, ?_⟩
  · refine hfile (load_looseFiles.1 .event) (fun _ => ?_) ?_ (append_filesOf _ _ _)
    · exact (resumed_looseArchive.resumable.resumes (.envelopes .event)).ends
    · exact List.forall_mem_singleton.mpr reread?_purchase
  · have hfollows := store_follows consistent_looseArchive (by decide +kernel)
      MemoryEvents.cartEvent
    have hstore : registry.store MemoryEvents.cartEvent looseArchive =
        (.ok (.ofNat 2), (registry.store MemoryEvents.cartEvent looseArchive).2) :=
      Prod.ext (Prod.ext_iff.mp (hfollows.unsealed rfl)).1 rfl
    have hfound := hstored _ _ _ hstore reread?_purchase ?_
    · rwa [show (registry.store MemoryEvents.cartEvent looseArchive).2.layout = .ofDataDir "data"
        from hfollows.layout] at hfound
    · intro kind rs hrs
      obtain rfl := Except.ok.inj ((load_looseFiles.1 kind).symm.trans hrs)
      cases kind <;> decide +kernel
  · have hfollows := markDispatched_follows consistent_looseArchive (.ofNat 2)
    have hmark : registry.markDispatched (.ofNat 2) looseArchive =
        (.ok true, (registry.markDispatched (.ofNat 2) looseArchive).2) :=
      Prod.ext (Prod.ext_iff.mp (hfollows.unsealed rfl)).1 rfl
    have hfound := hmarked _ _ _ hmark
    rwa [show (registry.markDispatched (.ofNat 2) looseArchive).2.layout = .ofDataDir "data"
      from hfollows.layout] at hfound

/-- Whether the file of events can be loaded. -/
def eventsLoad (d : Directory) : Bool :=
  ((Holding.envelopes .event).load (.ofDataDir "data") d).isOk

/-- An append to a line without an end makes one line of two records, which is none. -/
theorem not_append_extends :
    ¬∀ (c : Holding) (layout : Layout) (d d' : Directory) (rs new : List c.Record),
      c.load layout d = .ok rs → (∀ r ∈ new, c.format.reread? r = some r) →
      append c.format (c.file layout) new d = (.ok (), d') →
      c.load layout d' = .ok (rs ++ new) := by
  intro h
  have hread : Lines.read .envelopes (purchaseLine 1) = .ok [purchase 1] :=
    readAll_of_filled 1 (by decide +kernel)
  have hmarks : Lines.read .ids [] = .ok [] := rfl
  have hload := (load_filesOf hread hmarks).1 .event
  have hok := h (.envelopes .event) (.ofDataDir "data") _ _ [purchase 1] [purchase 2] hload
    (List.forall_mem_singleton.mpr reread?_purchase) (append_filesOf _ _ _)
  have hfails : eventsLoad (append .envelopes Layout.eventsFile [purchase 2]
      (filesOf (purchaseLine 1) [])).2 = false := by decide +kernel
  rw [eventsLoad, hok] at hfails
  cases hfails

end EventArchive

end Chronicle
