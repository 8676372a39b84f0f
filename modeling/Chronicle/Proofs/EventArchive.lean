import Chronicle.Proofs.Rewriting

set_option autoImplicit false

/-!
# Archives in step with their files

The collection files of an archive hold what its memory holds, in whatever order. A call either
does to the memory what the registry in memory does, or fails and leaves the memory as it was;
files that were in step with it are so again either way. Main statements: this holds of storing,
marking, replacing and removing (`store_follows`, `markDispatched_follows`, `replace_follows`,
`deleteAll_follows`).
-/

namespace Chronicle.EventArchive

open Directory Lines

/-- The text reads as what the part of the ledger reads as, in whatever order. -/
def Part.Mirrored (l : Ledger) (text : List Char) : Part → Prop
  | .envelopes kind => Mirrors .envelopes text (l.records kind)
  | .marks => Mirrors .ids text l.dispatched

theorem Part.mirrored_text (l : Ledger) (p : Part) : p.Mirrored l (p.text l) := by
  cases p with
  | envelopes kind => exact Mirrors.of_spell _
  | marks => exact Mirrors.of_spell _

/-- A sound archive whose collections and indices agree on one map of envelopes. -/
structure Consistent (s : EventArchive) : Prop extends Sound s where
  represents : ∃ c, s.memory.ledger.Represents c

/-- Each collection file reads as what the memory holds of it. -/
structure Synced (s : EventArchive) : Prop extends Consistent s where
  mirrored : ∀ p : Part, p.Mirrored s.memory.ledger (s.directory.content (p.file s.layout).text)

/--
What a call of an archive may do: answer and change the memory as the given call of the registry
in memory, or fail and leave the memory as it is; without seals it does the former. Files that
were in step with the memory are so again.
-/
structure Follows {α : Type} (s : EventArchive) (call : Call MemoryEvents α)
    (r : Except RegistryError α) (s' : EventArchive) : Prop where
  consistent : Consistent s'
  synced : Synced s → Synced s'
  layout : s'.layout = s.layout
  sealedNames : s'.directory.sealedNames = s.directory.sealedNames
  readModels : s'.directory.entry? s.layout.readModels.text =
    s.directory.entry? s.layout.readModels.text
  effect : (r, s'.memory) = call s.memory ∨ (∃ e, r = .error e) ∧ s'.memory = s.memory
  unsealed : s.directory.sealedNames = [] → (r, s'.memory) = call s.memory

variable {s : EventArchive} {α : Type}

/-- A call that leaves memory and files as they are, as the memory would. -/
theorem follows_unchanged (h : Consistent s) {call : Call MemoryEvents α}
    {r : Except RegistryError α} (hcall : call s.memory = (r, s.memory)) : Follows s call r s :=
  ⟨h, fun hsynced => hsynced, rfl, rfl, rfl, Or.inl hcall.symm, fun _ => hcall.symm⟩

/-- A call that fails, and leaves memory and files as they are, because a file is sealed. -/
theorem follows_refused (h : Consistent s) (call : Call MemoryEvents α) (e : RegistryError)
    (hsealed : s.directory.sealedNames ≠ []) : Follows s call (.error e) s :=
  ⟨h, fun hsynced => hsynced, rfl, rfl, rfl, Or.inr ⟨⟨e, rfl⟩, rfl⟩, fun hs => absurd hs hsealed⟩

/-- A call that only reads the memory. -/
theorem follows_read (h : Consistent s) (call : Call MemoryEvents α)
    (hread : (call s.memory).2 = s.memory) :
    Follows s call (inMemory call s).1 (inMemory call s).2 := by
  have hcall : inMemory call s = ((call s.memory).1, s) := by
    simp only [inMemory, Fallible.within, hread]
  rw [hcall]
  exact follows_unchanged h (Prod.ext rfl hread)

/-! ## Changes that are committed -/

/-- What a commit does, step by step: a failed write is followed by one of what was there before. -/
theorem commit_eq (h : Consistent s) (kinds : List EnvelopeKind) (withDispatched : Bool)
    {change : Call MemoryEvents α} {answer : α} {m : MemoryEvents} {r : Except RegistryError Unit}
    {d : Directory} (hchange : change s.memory = (.ok answer, m)) (hids : m.ids = s.memory.ids)
    (hwrite : rewriteAll (parts kinds withDispatched) { s with memory := m } =
      (r, { s with memory := m, directory := d })) :
    commit kinds withDispatched change s =
      match r with
      | .ok () => (.ok answer, { s with memory := m, directory := d })
      | .error e =>
          (.error e, (rewriteAll (parts kinds withDispatched) { s with directory := d }).2) := by
  obtain ⟨c, hc⟩ := h.represents
  -- the checkpoint represents the same map, and so makes the same ledger
  have hrestored : (⟨.ofRecords s.memory.ledger.allRecords s.memory.ledger.dispatched, m.ids⟩ :
      MemoryEvents) = s.memory := by
    rw [hc.ofRecords_eq (.refl _) (.refl _), hids]
  rw [commit, persistAll_eq]
  simp only [Fallible.bind_apply, Fallible.read, inMemory, Fallible.within, hchange,
    Fallible.outcome, hwrite]
  cases r with
  | ok u => rfl
  | error e =>
      show (Except.error e, (rewriteAll (parts kinds withDispatched) ⟨s.layout, d,
        ⟨.ofRecords s.memory.ledger.allRecords s.memory.ledger.dispatched, m.ids⟩⟩).2) = _
      rw [hrestored]

/-- Parts that were just written, and parts whose files and records stay, are mirrored. -/
theorem Synced.of_rewritten {t : EventArchive} {ps : List Part} {d : Directory}
    (h : Synced s) (ht : t.layout = s.layout) (hr : Rewritten t ps d)
    (hrepresents : ∃ c, t.memory.ledger.Represents c)
    (hkept : ∀ p, p ∉ ps →
      t.directory.content (p.file s.layout).text = s.directory.content (p.file s.layout).text ∧
      ∀ text, p.Mirrored s.memory.ledger text → p.Mirrored t.memory.ledger text) :
    Synced { t with directory := d } := by
  refine ⟨⟨⟨ht ▸ h.separate, hr.plain⟩, hrepresents⟩, fun p => ?_⟩
  show p.Mirrored _ (d.content _)
  by_cases hp : p ∈ ps
  · rw [content_of_entry (hr.written p hp)]
    exact p.mirrored_text _
  · have hsame : d.content (p.file t.layout).text = t.directory.content (p.file t.layout).text :=
      content_congr (hr.kept_part (ht ▸ h.separate) hp)
    obtain ⟨hcontent, hmirrored⟩ := hkept p hp
    rw [hsame, ht, hcontent]
    exact hmirrored _ (h.mirrored p)

/--
A commit writes the touched parts and keeps the change; or it takes the change back, and each
part that had been written holds what it held before.
-/
theorem commit_follows (h : Consistent s) (kinds : List EnvelopeKind) (withDispatched : Bool)
    {change : Call MemoryEvents α} {answer : α} {m : MemoryEvents}
    (hchange : change s.memory = (.ok answer, m)) (hids : m.ids = s.memory.ids)
    (hrepresents : ∃ c, m.ledger.Represents c)
    (hkept : ∀ p, p ∉ parts kinds withDispatched → ∀ text, p.Mirrored s.memory.ledger text →
      p.Mirrored m.ledger text) :
    Follows s change (commit kinds withDispatched change s).1
      (commit kinds withDispatched change s).2 := by
  have hchanged : Sound { s with memory := m } := ⟨h.separate, h.plain⟩
  obtain ⟨r, d, hwrite, hwritten, hr⟩ := rewriteAll_spec hchanged (parts kinds withDispatched)
  have hreadModels := hwritten.kept s.layout.readModels (Part.readModels_mem _)
    fun p _ => Part.file_ne_readModels h.separate p
  rw [commit_eq h kinds withDispatched hchange hids hwrite]
  rcases hr with ⟨rfl, hall⟩ | ⟨⟨e, rfl⟩, hrefused⟩
  · rw [hall] at hwritten
    -- every touched part was written, and holds what the memory now holds
    refine ⟨⟨⟨h.separate, hwritten.plain⟩, hrepresents⟩, fun hsynced => ?_, rfl,
      hwritten.sealedNames, hreadModels, Or.inl hchange.symm, fun _ => hchange.symm⟩
    exact hsynced.of_rewritten (t := { s with memory := m }) rfl hwritten hrepresents
      fun p hp => ⟨rfl, hkept p hp⟩
  · -- the files that had accepted the change accept what was there before
    have hback : Sound { s with directory := d } := ⟨h.separate, hwritten.plain⟩
    obtain ⟨r', d', hwrite', hwritten', -⟩ := rewriteAll_spec hback (parts kinds withDispatched)
    have haccepted : accepted { s with directory := d } (parts kinds withDispatched) =
        accepted { s with memory := m } (parts kinds withDispatched) :=
      accepted_congr hchanged hwritten.plain hwritten.sealedNames _
    have hreadModels' := hwritten'.kept s.layout.readModels (Part.readModels_mem _)
      fun p _ => Part.file_ne_readModels h.separate p
    dsimp only
    rw [hwrite']
    refine ⟨⟨⟨h.separate, hwritten'.plain⟩, h.represents⟩, fun hsynced => ?_, rfl,
      hwritten'.sealedNames.trans hwritten.sealedNames, hreadModels'.trans hreadModels,
      Or.inr ⟨⟨e, rfl⟩, rfl⟩, fun hs => ?_⟩
    · refine hsynced.of_rewritten (t := { s with directory := d }) rfl hwritten' h.represents ?_
      intro p hp
      rw [haccepted] at hp
      exact ⟨content_congr (hwritten.kept_part h.separate hp), fun _ hmirrored => hmirrored⟩
    · exact absurd (accepted_of_unsealed hchanged hs _) hrefused

theorem deleteAll_follows (h : Consistent s) :
    Follows s MemoryEvents.deleteAll (deleteAll s).1 (deleteAll s).2 := by
  refine commit_follows h _ _ rfl rfl ⟨_, Ledger.represents_empty⟩ ?_
  intro p hp
  rcases p with (_ | _) | _ <;> exact absurd hp (by decide)

/-- A kind that a replacement does not touch is neither that of it nor of what it replaces. -/
theorem ne_of_not_touched {kind old : EnvelopeKind} {replacement : Option Envelope}
    (h : kind ∉ touched old replacement) :
    kind ≠ old ∧ ∀ e, replacement = some e → kind ≠ e.kind := by
  cases replacement with
  | none => exact ⟨by simpa [touched] using h, fun e he => by cases he⟩
  | some e =>
      by_cases hk : e.kind = old
      · have hold : kind ≠ old := by simpa [touched, hk] using h
        refine ⟨hold, ?_⟩
        rintro e' ⟨⟩
        rw [hk]
        exact hold
      · have hboth : kind ≠ old ∧ kind ≠ e.kind := by simpa [touched, hk] using h
        refine ⟨hboth.1, ?_⟩
        rintro e' ⟨⟩
        exact hboth.2

theorem replace_follows (h : Consistent s) (id : UniqueId) (replacement : Option Envelope) :
    Follows s (MemoryEvents.replace id replacement) (replace id replacement s).1
      (replace id replacement s).2 := by
  obtain ⟨c, hc⟩ := h.represents
  cases hold : s.memory.ledger.locate id with
  | none =>
      -- nothing stands under the id, so nothing is written
      have hcall : replace id replacement s = (.ok false, s) := by
        rw [replace, Fallible.bind_apply, Fallible.read]
        simp only [hold]
        rfl
      have hmemory : MemoryEvents.replace id replacement s.memory = (.ok false, s.memory) := by
        simp [MemoryEvents.replace, MemoryEvents.onLedger, Ledger.replace, hold]
      rw [hcall]
      exact follows_unchanged h hmemory
  | some old =>
      have hcall : replace id replacement s =
          commit (touched old replacement) false (MemoryEvents.replace id replacement) s := by
        rw [replace, Fallible.bind_apply, Fallible.read]
        simp only [hold]
      rw [hcall]
      -- a part that is not touched has the records that it had
      refine commit_follows h _ _ rfl rfl ⟨_, hc.replace id replacement⟩ ?_
      intro p hp text hmirrored
      cases p with
      | marks =>
          show Mirrors .ids text (s.memory.ledger.replace id replacement).dispatched
          rw [Ledger.dispatched_replace]
          exact hmirrored
      | envelopes kind =>
          have hkind : kind ∉ touched old replacement := by simpa [parts] using hp
          obtain ⟨hne, hnew⟩ := ne_of_not_touched hkind
          show Mirrors .envelopes text ((s.memory.ledger.replace id replacement).records kind)
          rw [Ledger.records_replace_of_ne hold hne hnew]
          exact hmirrored

/-! ## Changes that are appended -/

/-- What an append to the file of a part leaves of the other parts. -/
theorem content_of_agreesBut (h : s.layout.Separate) {p q : Part} {d : Directory}
    (hd : AgreesBut [(p.file s.layout).text] s.directory d) (hqp : q ≠ p) :
    d.content (q.file s.layout).text = s.directory.content (q.file s.layout).text := by
  refine content_congr (hd.entry _ ?_)
  rw [List.mem_singleton]
  exact fun htext => hqp (Part.file_injective h htext)

theorem readModels_of_agreesBut (h : s.layout.Separate) {p : Part} {d : Directory}
    (hd : AgreesBut [(p.file s.layout).text] s.directory d) :
    d.entry? s.layout.readModels.text = s.directory.entry? s.layout.readModels.text := by
  refine hd.entry _ ?_
  rw [List.mem_singleton]
  exact (p.file_ne_readModels h).symm

theorem Sound.writable_of_unsealed (h : Sound s) (hs : s.directory.sealedNames = []) (p : Part) :
    s.directory.writable (p.file s.layout).text = true :=
  h.plain.writable_of_unsealed hs (h.separate.allowed _ (p.file_mem s.layout)).1

/-- A part whose file took an append, with the records of the others as they were, is mirrored. -/
theorem Synced.of_append {p : Part} {d : Directory} {m : MemoryEvents} (h : Synced s)
    (hplain : d.Plain) (hd : AgreesBut [(p.file s.layout).text] s.directory d)
    (hrepresents : ∃ c, m.ledger.Represents c)
    (hp : p.Mirrored m.ledger (d.content (p.file s.layout).text))
    (hother : ∀ q, q ≠ p → ∀ text, q.Mirrored s.memory.ledger text → q.Mirrored m.ledger text) :
    Synced ⟨s.layout, d, m⟩ := by
  refine ⟨⟨⟨h.separate, hplain⟩, hrepresents⟩, fun q => ?_⟩
  show q.Mirrored m.ledger (d.content (q.file s.layout).text)
  by_cases hq : q = p
  · rw [hq]
    exact hp
  · rw [content_of_agreesBut h.separate hd hq]
    exact hother q hq _ (h.mirrored q)

/-- An envelope is stored under an id under which nothing stands. -/
theorem store_follows (h : Consistent s)
    (fresh : s.memory.ledger.locate s.memory.ids.next = none) (e : Envelope) :
    Follows s (MemoryEvents.store e) (store e s).1 (store e s).2 := by
  obtain ⟨c, hc⟩ := h.represents
  have hnew : c s.memory.ids.next = none := by
    rw [hc.locate] at fresh
    exact Option.map_eq_none_iff.mp fresh
  obtain ⟨r, d, hcall, hplain, hd, hr⟩ := append_spec h.plain .envelopes (fileOf s.layout e.kind)
    [⟨s.memory.ids.next, e⟩]
  unfold store
  simp only [onFiles, Fallible.within, hcall]
  rcases hr with ⟨rfl, hcontent⟩ | ⟨⟨error, rfl⟩, hrefused, rfl⟩
  · refine ⟨⟨⟨h.separate, hplain⟩, ⟨_, hc.insert hnew e⟩⟩, fun hsynced => ?_, rfl, hd.sealedNames,
      readModels_of_agreesBut (p := .envelopes e.kind) h.separate hd, Or.inl rfl, fun _ => rfl⟩
    refine hsynced.of_append (p := .envelopes e.kind)
      (m := ⟨s.memory.ledger.insert s.memory.ids.next e, s.memory.ids.advance⟩) hplain hd
      ⟨_, hc.insert hnew e⟩ ?_ ?_
    · show Mirrors .envelopes (d.content _) ((s.memory.ledger.insert _ e).records e.kind)
      have hmirrored : Mirrors .envelopes _ (s.memory.ledger.records e.kind) :=
        hsynced.mirrored (.envelopes e.kind)
      have happended := hmirrored.append_spell ⟨s.memory.ids.next, e⟩
      exact hcontent ▸ happended.perm (hc.records_insert_perm hnew e).symm
    · intro q hq text hmirrored
      cases q with
      | marks =>
          show Mirrors .ids text (s.memory.ledger.insert _ e).dispatched
          rw [Ledger.dispatched_insert]
          exact hmirrored
      | envelopes kind =>
          have hk : kind ≠ e.kind := fun hk => hq (hk ▸ rfl)
          show Mirrors .envelopes text ((s.memory.ledger.insert _ e).records kind)
          rw [Ledger.records_insert_of_ne hk]
          exact hmirrored
  -- the file refused the line: the envelope is taken out of memory again
  · have hback : (⟨s.layout, s.directory, ⟨(s.memory.ledger.insert s.memory.ids.next e).replace
        s.memory.ids.next none, s.memory.ids⟩⟩ : EventArchive) = s := by
      rw [hc.replace_none_insert hnew]
    dsimp only
    rw [hback]
    refine follows_refused h _ error fun hs => ?_
    exact absurd (h.writable_of_unsealed hs (.envelopes e.kind)) (by simp [Part.file, hrefused])

/-- What a first mark does, step by step: a failed append is followed by taking the mark back. -/
theorem markDispatched_eq {id : UniqueId} {r : Except RegistryError Unit} {d : Directory}
    (hid : s.memory.ledger.isDispatched id = false)
    (happend : append .ids s.layout.dispatched [id] s.directory = (r, d)) :
    markDispatched id s =
      match r with
      | .ok () => (.ok true, ⟨s.layout, d, ⟨s.memory.ledger.mark id, s.memory.ids⟩⟩)
      | .error e =>
          (.error e, ⟨s.layout, d, ⟨(s.memory.ledger.mark id).unmark id, s.memory.ids⟩⟩) := by
  have hmemory : MemoryEvents.markDispatched id s.memory =
      (.ok true, ⟨s.memory.ledger.mark id, s.memory.ids⟩) := by
    simp [MemoryEvents.markDispatched, MemoryEvents.onLedger, hid]
  simp only [markDispatched, Fallible.bind_apply, inMemory, Fallible.within, hmemory, ↓reduceIte,
    Fallible.read, onFiles, Fallible.outcome, happend]
  cases r with
  | ok u => rfl
  | error e => rfl

/-- An id is marked in memory, and in its file if it was not marked before. -/
theorem markDispatched_follows (h : Consistent s) (id : UniqueId) :
    Follows s (MemoryEvents.markDispatched id) (markDispatched id s).1 (markDispatched id s).2 := by
  obtain ⟨c, hc⟩ := h.represents
  cases hid : s.memory.ledger.isDispatched id with
  | true =>
      -- a second mark is no news, and nothing is appended
      have hsame : s.memory.ledger.mark id = s.memory.ledger := hc.mark_of_isDispatched hid
      have hmemory : MemoryEvents.markDispatched id s.memory = (.ok false, s.memory) := by
        simp [MemoryEvents.markDispatched, MemoryEvents.onLedger, hid, hsame]
      have hcall : markDispatched id s = (.ok false, s) := by
        simp only [markDispatched, Fallible.bind_apply, inMemory, Fallible.within, hmemory]
        rfl
      rw [hcall]
      exact follows_unchanged h hmemory
  | false =>
      obtain ⟨r, d, happend, hplain, hd, hr⟩ := append_spec h.plain .ids s.layout.dispatched [id]
      rw [markDispatched_eq hid happend]
      rcases hr with ⟨rfl, hcontent⟩ | ⟨⟨e, rfl⟩, hrefused, rfl⟩
      · have heffect : MemoryEvents.markDispatched id s.memory =
            (.ok true, ⟨s.memory.ledger.mark id, s.memory.ids⟩) := by
          simp [MemoryEvents.markDispatched, MemoryEvents.onLedger, hid]
        refine ⟨⟨⟨h.separate, hplain⟩, ⟨_, hc.mark id⟩⟩, fun hsynced => ?_, rfl, hd.sealedNames,
          readModels_of_agreesBut (p := .marks) h.separate hd, Or.inl heffect.symm,
          fun _ => heffect.symm⟩
        refine hsynced.of_append (p := .marks) (m := ⟨s.memory.ledger.mark id, s.memory.ids⟩)
          hplain hd ⟨_, hc.mark id⟩ ?_ ?_
        · show Mirrors .ids (d.content _) (s.memory.ledger.mark id).dispatched
          have hmirrored : Mirrors .ids _ s.memory.ledger.dispatched := hsynced.mirrored .marks
          have happended := hmirrored.append_spell id
          exact hcontent ▸ happended.perm (hc.dispatched_mark_perm hid).symm
        · intro q hq text hmirrored
          cases q with
          | marks => exact absurd rfl hq
          | envelopes kind => cases kind <;> exact hmirrored
      · -- the mark is taken back
        dsimp only
        rw [hc.unmark_mark hid]
        refine follows_refused h _ e fun hs => ?_
        exact absurd (h.writable_of_unsealed hs .marks) (by simp [Part.file, hrefused])

end Chronicle.EventArchive
