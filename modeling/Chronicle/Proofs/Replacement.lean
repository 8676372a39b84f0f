import Chronicle.Proofs.Frames
import Chronicle.Proofs.LedgerHistory
import Chronicle.Proofs.Reopening

set_option autoImplicit false

/-!
# Replacements found again

A replacement writes anew the files of the kinds that it touches, from what the memory holds, and
leaves the other files as they are, whatever stands in them. Main statement: as long as the files
that stay say what the memory says, and nothing of the id that is replaced, an archive that is
opened anew finds the replacement, and all else as it was (`find?_of_replaced`); an id that stands
in the files of both kinds comes back after it was removed (`not_find?_of_repeated`).
-/

namespace Chronicle.EventArchive

open Directory Lines

variable {s s' : EventArchive} {layout : Layout} {d d' : Directory}

/-! ## Parts written anew in any directory -/

/-- A part that is written anew is read from its file, and no other file changes. -/
theorem Part.rewrite_of_ok {p : Part} (hd : s.directory.Ordered)
    (h : p.rewrite s = (.ok (), s')) :
    ∃ d, s' = { s with directory := d } ∧
      Framed [stagingName (p.file s.layout).text, (p.file s.layout).text] s.directory d ∧
      d.read (p.file s.layout).text = .ok (some (p.text s.memory.ledger)) := by
  cases p with
  | envelopes kind =>
      have hframed := framed_replaceAll hd .envelopes (fileOf s.layout kind)
        (s.memory.ledger.records kind)
      simp only [rewrite, persist, onFiles, Fallible.within] at h
      cases hcall : replaceAll .envelopes (fileOf s.layout kind)
          (s.memory.ledger.records kind) s.directory with
      | mk r d =>
          rw [hcall] at h hframed
          cases h
          exact ⟨d, rfl, hframed, read_of_replaceAll hcall⟩
  | marks =>
      have hframed := framed_replaceAll hd .ids s.layout.dispatched s.memory.ledger.dispatched
      simp only [rewrite, persistDispatched, onFiles, Fallible.within] at h
      cases hcall : replaceAll .ids s.layout.dispatched s.memory.ledger.dispatched
          s.directory with
      | mk r d =>
          rw [hcall] at h hframed
          cases h
          exact ⟨d, rfl, hframed, read_of_replaceAll hcall⟩

/-- The directory has the given parts written anew, and the files of all others as they were. -/
structure Refiled (s : EventArchive) (ps : List Part) (d : Directory) : Prop where
  ordered : d.Ordered
  written : ∀ p ∈ ps,
    d.read (p.file s.layout).text = .ok (some (p.text s.memory.ledger))
  kept : ∀ p, p ∉ ps →
    d.entry? (p.file s.layout).text = s.directory.entry? (p.file s.layout).text

/-- Parts that were all written anew are read from their files; the memory stays. -/
theorem refiled_of_ok (hl : s.layout.Separate) (hd : s.directory.Ordered) {ps : List Part}
    (h : rewriteAll ps s = (.ok (), s')) :
    ∃ d, s' = { s with directory := d } ∧ Refiled s ps d := by
  induction ps generalizing s with
  | nil =>
      obtain rfl : s = s' := (Prod.ext_iff.mp h).2
      exact ⟨s.directory, rfl, hd, fun _ hp => absurd hp List.not_mem_nil, fun _ _ => rfl⟩
  | cons p ps ih =>
      obtain ⟨_, t, hfirst, hrest⟩ := Fallible.ok_of_bind h
      obtain ⟨d₁, rfl, hframed, hread⟩ := p.rewrite_of_ok hd hfirst
      obtain ⟨d₂, rfl, hrefiled⟩ := ih (s := { s with directory := d₁ }) hl hframed.ordered hrest
      -- writing one part leaves the files of the others
      have hother : ∀ q, q ≠ p →
          d₁.entry? (q.file s.layout).text = s.directory.entry? (q.file s.layout).text := by
        intro q hq
        refine hframed.agrees.entry _ ?_
        rw [List.mem_cons, List.mem_singleton, not_or]
        exact ⟨(hl.apart _ (p.file_mem _) _ (q.file_mem _)).symm,
          fun htext => hq (Part.file_injective hl htext)⟩
      refine ⟨d₂, rfl, hrefiled.ordered, ?_, ?_⟩
      · intro q hq
        by_cases hmem : q ∈ ps
        · exact hrefiled.written q hmem
        · obtain rfl : q = p := (List.mem_cons.mp hq).resolve_right hmem
          have hkept := hrefiled.kept q hmem
          rw [← hread, Directory.read, Directory.read, hkept]
      · intro q hq
        rw [List.mem_cons, not_or] at hq
        obtain ⟨hne, hmem⟩ := hq
        exact (hrefiled.kept q hmem).trans (hother q hne)

/-- A replacement that succeeds finds something under the id, replaces it in memory, and writes
the touched kinds anew. -/
theorem rewriteAll_of_replaced {id : UniqueId} {r : Option Envelope}
    (h : replace id r s = (.ok true, s')) :
    ∃ old, s.memory.ledger.locate id = some old ∧
      rewriteAll ((touched old r).map .envelopes)
        { s with memory := ⟨s.memory.ledger.replace id r, s.memory.ids⟩ } = (.ok (), s') := by
  rw [replace, Fallible.bind_apply, Fallible.read] at h
  dsimp only at h
  cases hold : s.memory.ledger.locate id with
  | none =>
      rw [hold] at h
      cases h
  | some old =>
      rw [hold] at h
      have hparts : parts (touched old r) false = (touched old r).map .envelopes :=
        List.append_nil _
      dsimp only at h
      rw [commit, persistAll_eq, hparts] at h
      simp only [Fallible.bind_apply, Fallible.read, inMemory, Fallible.within,
        MemoryEvents.replace, MemoryEvents.onLedger, Fallible.outcome] at h
      refine ⟨old, rfl, ?_⟩
      cases hwrite : rewriteAll ((touched old r).map .envelopes)
          { s with memory := ⟨s.memory.ledger.replace id r, s.memory.ids⟩ } with
      | mk outcome t =>
          rw [hwrite] at h
          cases outcome with
          | ok u => exact Prod.ext rfl (Prod.ext_iff.mp h).2
          | error e => cases h

/-! ## Files that stay -/

/-- A kind that neither what stands under the id nor its replacement has. -/
def Untouched (s : EventArchive) (id : UniqueId) (r : Option Envelope) (kind : EnvelopeKind) :
    Prop :=
  s.memory.ledger.locate id ≠ some kind ∧ ∀ e, r = some e → e.kind ≠ kind

/-- The files that a replacement leaves as they are agree with the memory. -/
structure InPlace (s : EventArchive) (id : UniqueId) (r : Option Envelope) : Prop where
  /-- No such file has the id, unless the replacement stands in a file that is read later. -/
  alone : ∀ kind records,
    Lines.load .envelopes s.layout (fileOf s.layout kind) s.directory = .ok records →
    Untouched s id r kind →
    (kind = .event ∧ r.isSome) ∨ ∀ record ∈ records, record.id ≠ id
  /-- What is held of the kind of such a file is what the file says last. -/
  held : ∀ kind records,
    Lines.load .envelopes s.layout (fileOf s.layout kind) s.directory = .ok records →
    Untouched s id r kind →
    ∀ other e, s.memory.ledger.find? other = some e → e.kind = kind →
      Contents.ofRecords records other = some e

theorem untouched_iff {id : UniqueId} {r : Option Envelope} {old kind : EnvelopeKind}
    (hold : s.memory.ledger.locate id = some old) :
    Untouched s id r kind ↔ kind ∉ touched old r := by
  constructor
  · rintro ⟨hne, hnew⟩ hmem
    rw [hold] at hne
    cases r with
    | none => exact hne (congrArg some (List.mem_singleton.mp hmem).symm)
    | some e =>
        rw [touched] at hmem
        split at hmem
        · exact hne (congrArg some (List.mem_singleton.mp hmem).symm)
        · rcases List.mem_cons.mp hmem with heq | hmem
          · exact hne (congrArg some heq.symm)
          · exact hnew e rfl (List.mem_singleton.mp hmem).symm
  · intro hmem
    obtain ⟨hne, hnew⟩ := ne_of_not_touched hmem
    rw [Untouched, hold]
    exact ⟨fun heq => hne (Option.some.inj heq).symm, fun e he => (hnew e he).symm⟩

section

variable {id : UniqueId} {r : Option Envelope} {old : EnvelopeKind}
variable {filed : EnvelopeKind → List StoredEnvelope} {marks : List UniqueId}

/-- What the file of a kind holds after a replacement that has written anew the kinds touched. -/
def refiled (s : EventArchive) (id : UniqueId) (r : Option Envelope) (old : EnvelopeKind)
    (filed : EnvelopeKind → List StoredEnvelope) (kind : EnvelopeKind) : List StoredEnvelope :=
  if kind ∈ touched old r then (s.memory.ledger.replace id r).records kind else filed kind

/-- Files that were written anew are loaded as the records that they were written from, and all
others as before. -/
theorem load_refiled
    (hr : Refiled { s with memory := ⟨s.memory.ledger.replace id r, s.memory.ids⟩ }
      ((touched old r).map .envelopes) d)
    (hfiled : ∀ kind,
      Lines.load .envelopes s.layout (fileOf s.layout kind) s.directory = .ok (filed kind))
    (hmarks : Lines.load .ids s.layout s.layout.dispatched s.directory = .ok marks)
    (hreads : ∀ kind ∈ touched old r, ∀ record ∈ (s.memory.ledger.replace id r).records kind,
      RecordFormat.envelopes.reread? record = some record) :
    load s.layout d = .ok
      (.ofRecords (refiled s id r old filed .event ++ refiled s id r old filed .snapshot)
        marks) := by
  refine load_eq_ok_iff_loads.mpr ⟨refiled s id r old filed, marks, fun kind => ?_, ?_, rfl⟩
  · by_cases hkind : kind ∈ touched old r
    · have hwritten := hr.written (.envelopes kind) (List.mem_map_of_mem hkind)
      have hback : ((s.memory.ledger.replace id r).records kind).map
          RecordFormat.envelopes.reread? =
          ((s.memory.ledger.replace id r).records kind).map some :=
        List.map_congr_left (hreads kind hkind)
      have hread := (read_spell_eq_ok_iff RecordFormat.visible_envelopes _ _).mpr hback
      simp only [Part.file, Part.text] at hwritten
      rw [refiled, if_pos hkind, Lines.load, hwritten]
      simp only [hread]
    · have hkept : Part.envelopes kind ∉ (touched old r).map Part.envelopes := by simpa using hkind
      rw [refiled, if_neg hkind, ← hfiled kind]
      exact Lines.load_congr _ _ (hr.kept _ hkept)
  · have hkept : Part.marks ∉ (touched old r).map Part.envelopes := by simp
    rw [← hmarks]
    exact Lines.load_congr _ _ (hr.kept _ hkept)

/-- A file that stays says of the id nothing, unless the replacement is read later. -/
theorem filed_alone (hold : s.memory.ledger.locate id = some old)
    (hfiled : ∀ kind,
      Lines.load .envelopes s.layout (fileOf s.layout kind) s.directory = .ok (filed kind))
    (h : InPlace s id r) {kind : EnvelopeKind} (hkind : kind ∉ touched old r) :
    kind = .event ∧ r.isSome ∨ Contents.ofRecords (filed kind) id = none := by
  rcases h.alone kind _ (hfiled kind) ((untouched_iff hold).mpr hkind) with hlater | hnone
  · exact Or.inl hlater
  · refine Or.inr (Option.eq_none_iff_forall_ne_some.mpr fun e he => ?_)
    exact hnone _ (Contents.mem_of_ofRecords he) rfl

/-- Files are in place if each record stands in that of its kind, and the id in no other. -/
theorem inPlace_of_kinds
    (hledger : s.memory.ledger = .ofRecords (filed .event ++ filed .snapshot) marks)
    (hfiled : ∀ kind,
      Lines.load .envelopes s.layout (fileOf s.layout kind) s.directory = .ok (filed kind))
    (hkinds : ∀ kind, ∀ record ∈ filed kind, record.envelope.kind = kind)
    (hid : ∀ kind, Untouched s id r kind → ∀ record ∈ filed kind, record.id ≠ id) :
    InPlace s id r := by
  constructor
  · intro kind records hload huntouched
    obtain rfl : filed kind = records := Except.ok.inj ((hfiled kind).symm.trans hload)
    exact Or.inr (hid kind huntouched)
  · intro kind records hload _ other e he hkind
    obtain rfl : filed kind = records := Except.ok.inj ((hfiled kind).symm.trans hload)
    rw [hledger, (Ledger.represents_ofRecords _ _).find?_eq, Contents.ofRecords_append,
      Option.or_eq_some_iff] at he
    -- the file that the envelope came from is that of its kind
    rcases he with he | ⟨-, he⟩
    · obtain rfl : kind = .snapshot :=
        hkind.symm.trans (hkinds .snapshot _ (Contents.mem_of_ofRecords he))
      exact he
    · obtain rfl : kind = .event :=
        hkind.symm.trans (hkinds .event _ (Contents.mem_of_ofRecords he))
      exact he

/-! ## What the files say afterwards -/

/-- The contents after a replacement. -/
abbrev replaced (filed : EnvelopeKind → List StoredEnvelope) (id : UniqueId)
    (r : Option Envelope) : Contents :=
  Function.update (Contents.ofRecords (filed .event ++ filed .snapshot)) id r

-- something stands under the id, and the memory is what was loaded from the files
variable (hold : s.memory.ledger.locate id = some old)
variable (hledger : s.memory.ledger = .ofRecords (filed .event ++ filed .snapshot) marks)
variable (hfiled : ∀ kind,
  Lines.load .envelopes s.layout (fileOf s.layout kind) s.directory = .ok (filed kind))

include hold hledger

theorem replace_represents :
    (s.memory.ledger.replace id r).Represents (replaced filed id r) := by
  have hrepresents := Ledger.represents_ofRecords (filed .event ++ filed .snapshot) marks
  rw [← hledger] at hrepresents
  have hsome : (Contents.ofRecords (filed .event ++ filed .snapshot) id).isSome := by
    rw [hrepresents.locate] at hold
    rw [← Option.isSome_map, hold]
    rfl
  have hreplaced := hrepresents.replace id r
  rwa [Contents.replace, if_pos hsome] at hreplaced

/-- What the file of a kind says about an id after a replacement. -/
theorem ofRecords_refiled (kind : EnvelopeKind) (other : UniqueId) :
    Contents.ofRecords (refiled s id r old filed kind) other =
      if kind ∈ touched old r then (replaced filed id r other).filter fun e => e.kind = kind
      else Contents.ofRecords (filed kind) other := by
  unfold refiled
  split
  · exact (replace_represents hold hledger).ofRecords_records kind other
  · rfl

include hfiled

/-- An envelope is found in the file of its kind. -/
theorem refiled_own (h : InPlace s id r) {other : UniqueId} {e : Envelope}
    (he : replaced filed id r other = some e) :
    Contents.ofRecords (refiled s id r old filed e.kind) other = some e := by
  rw [ofRecords_refiled hold hledger]
  split
  · rw [he]
    simp
  · next huntouched =>
      have hstays := (untouched_iff hold).mpr huntouched
      have hother : other ≠ id := by
        rintro rfl
        rw [replaced, Function.update_self] at he
        exact hstays.2 e he rfl
      rw [replaced, Function.update_of_ne hother] at he
      refine h.held e.kind _ (hfiled e.kind) hstays other e ?_ rfl
      rw [hledger, (Ledger.represents_ofRecords _ _).find?_eq]
      exact he

/-- The file that is read last says of an id nothing, or what is right. -/
theorem refiled_snapshot (h : InPlace s id r) (other : UniqueId) :
    Contents.ofRecords (refiled s id r old filed .snapshot) other = none ∨
      Contents.ofRecords (refiled s id r old filed .snapshot) other =
        replaced filed id r other := by
  rw [ofRecords_refiled hold hledger]
  split
  · cases replaced filed id r other with
    | none => exact Or.inl rfl
    | some e =>
        by_cases hk : e.kind = .snapshot
        · exact Or.inr (by simp [hk])
        · exact Or.inl (by simp [hk])
  · next hkind =>
      by_cases hother : other = id
      · rw [hother]
        exact Or.inl ((filed_alone hold hfiled h hkind).resolve_left (by simp))
      · -- before, too, this file was read last
        rw [replaced, Function.update_of_ne hother, Contents.ofRecords_append]
        cases Contents.ofRecords (filed .snapshot) other with
        | none => exact Or.inl rfl
        | some e => exact Or.inr rfl

/-- No file says anything where nothing is left. -/
theorem refiled_none (h : InPlace s id r) {other : UniqueId}
    (he : replaced filed id r other = none) (kind : EnvelopeKind) :
    Contents.ofRecords (refiled s id r old filed kind) other = none := by
  rw [ofRecords_refiled hold hledger, he]
  split
  · rfl
  · next hkind =>
      by_cases hother : other = id
      · rw [hother, replaced, Function.update_self] at he
        rw [hother]
        refine (filed_alone hold hfiled h hkind).resolve_left ?_
        rintro ⟨-, hsome⟩
        rw [he] at hsome
        cases hsome
      · rw [replaced, Function.update_of_ne hother, Contents.ofRecords_append,
          Option.or_eq_none_iff] at he
        cases kind with
        | event => exact he.2
        | snapshot => exact he.1

/-- The files together say what the memory holds after the replacement. -/
theorem ofRecords_refiled_append (h : InPlace s id r) :
    Contents.ofRecords (refiled s id r old filed .event ++ refiled s id r old filed .snapshot) =
      replaced filed id r := by
  funext other
  rw [Contents.ofRecords_append]
  cases he : replaced filed id r other with
  | none =>
      rw [refiled_none hold hledger hfiled h he, refiled_none hold hledger hfiled h he]
      rfl
  | some e =>
      have hown := refiled_own hold hledger hfiled h he
      rcases refiled_snapshot hold hledger hfiled h other with hnone | hright
      · -- then the envelope is no snapshot, and the file of events has it
        rw [hnone, Option.none_or]
        cases hk : e.kind with
        | event => rwa [hk] at hown
        | snapshot =>
            rw [hk, hnone] at hown
            cases hown
      · rw [hright, he, Option.some_or]

end

theorem present_of_read {name : String} {text : List Char}
    (h : d.read name = .ok (some text)) : d.isPresent = true := by
  rw [Directory.read] at h
  split at h
  · split at h
    · cases h
    · next hentry =>
        obtain ⟨es, hes, -⟩ := Option.bind_eq_some_iff.mp hentry
        exact isPresent_iff.mpr ⟨es, hes⟩
    · cases h
  · cases h

/--
Let a replacement succeed on an archive with the usual files, whatever its directory held when it
was opened, and let the records that are written anew read back from their own lines. If the files
that are not written anew are in place, then an archive that is opened anew finds under the id
exactly the replacement, or nothing if there is none, and under every other id, and of every mark,
what was held in memory before; so it has the memory of the archive that it takes over from.
-/
theorem find?_of_replaced {dataDir : String} {ids : IdSupply} (ids' : IdSupply)
    {id : UniqueId} {r : Option Envelope} (hd : d.Ordered)
    (hopen : openAt (.ofDataDir dataDir) ids d = (.ok s, d'))
    (hreplaced : registry.replace id r s = (.ok true, s')) (hplace : InPlace s id r)
    (hreads : ∀ kind, ¬Untouched s id r kind → ∀ record ∈ s'.memory.ledger.records kind,
      RecordFormat.envelopes.reread? record = some record) :
    ∃ fresh, openAt (.ofDataDir dataDir) ids' s'.directory = (.ok fresh, s'.directory) ∧
      fresh.memory.ledger = s'.memory.ledger ∧
      fresh.memory.ledger.find? id = r ∧
      (∀ other, other ≠ id →
        fresh.memory.ledger.find? other = s.memory.ledger.find? other) ∧
      ∀ other,
        fresh.memory.ledger.isDispatched other = s.memory.ledger.isDispatched other := by
  have hl := Layout.separate_ofDataDir dataDir
  obtain ⟨hlayout, hdirectory, hload⟩ := of_openAt hl hopen
  obtain ⟨filed, marks, hfiled, hmarks, hledger⟩ := load_eq_ok_iff_loads.mp hload
  rw [← hlayout, ← hdirectory] at hfiled hmarks
  obtain ⟨old, hold, hwrite⟩ := rewriteAll_of_replaced hreplaced
  have hordered : s.directory.Ordered := hdirectory ▸ ordered_made hd
  obtain ⟨d₁, rfl, hrefiled⟩ := refiled_of_ok
    (s := { s with memory := ⟨s.memory.ledger.replace id r, s.memory.ids⟩ })
    (hlayout ▸ hl) hordered hwrite
  -- the new archive reads what the memory holds after the replacement
  have hledger' : .ofRecords (refiled s id r old filed .event ++ refiled s id r old filed .snapshot)
      marks = s.memory.ledger.replace id r := by
    have hrepresents := Ledger.represents_ofRecords
      (refiled s id r old filed .event ++ refiled s id r old filed .snapshot) marks
    rw [ofRecords_refiled_append hold hledger hfiled hplace] at hrepresents
    refine hrepresents.ext (replace_represents hold hledger) ?_
    rw [Ledger.dispatched_replace, hledger]
    rfl
  have hfresh : load s.layout d₁ = .ok (s.memory.ledger.replace id r) := by
    rw [← hledger']
    refine load_refiled hrefiled hfiled hmarks fun kind hkind => hreads kind ?_
    exact fun huntouched => (untouched_iff hold).mp huntouched hkind
  have htouched : old ∈ touched old r := by
    by_contra hmem
    exact ((untouched_iff hold).mpr hmem).1 hold
  have hmade : d₁.made = d₁ := by
    refine made_eq (present_of_read (hrefiled.written (.envelopes old) ?_))
    exact List.mem_map_of_mem htouched
  refine ⟨⟨.ofDataDir dataDir, d₁, ⟨s.memory.ledger.replace id r, ids'⟩⟩, ?_, rfl, ?_, ?_, ?_⟩
  · rw [openAt_eq hl, hmade, ← hlayout, hfresh]
  · exact ((replace_represents hold hledger).find?_eq id).trans (Function.update_self _ _ _)
  · intro other hother
    rw [hledger, (Ledger.represents_ofRecords _ _).find?_eq, ← hledger]
    exact ((replace_represents hold hledger).find?_eq other).trans
      (Function.update_of_ne hother _ _)
  · intro other
    rw [Ledger.isDispatched, Ledger.isDispatched]
    exact congrArg _ (Ledger.dispatched_replace id r s.memory.ledger)

/-! ## Records that stand in files -/

/-- The directory with the given records in the usual files. -/
def directoryOf (filed : EnvelopeKind → List StoredEnvelope) : Directory :=
  ((⟨some [], []⟩ : Directory).put Layout.eventsFile.text
    (.file (spell .envelopes (filed .event)))).put Layout.snapshotsFile.text
    (.file (spell .envelopes (filed .snapshot)))

/-- The archive that is opened there. -/
def archiveOf (filed : EnvelopeKind → List StoredEnvelope) : EventArchive :=
  ⟨.ofDataDir "data", directoryOf filed,
    ⟨.ofRecords (filed .event ++ filed .snapshot) [], ⟨.ofNat, 1⟩⟩⟩

theorem plain_directoryOf (filed : EnvelopeKind → List StoredEnvelope) :
    (directoryOf filed).Plain :=
  ((plain_of_no_entries rfl).put _ _).put _ _

theorem consistent_archiveOf (filed : EnvelopeKind → List StoredEnvelope) :
    Consistent (archiveOf filed) :=
  ⟨⟨Layout.separate_ofDataDir _, plain_directoryOf filed⟩, ⟨_, Ledger.represents_ofRecords _ _⟩⟩

/-- Records that read back from their own lines are loaded from the file that they stand in. -/
theorem load_archiveOf {filed : EnvelopeKind → List StoredEnvelope}
    (hreads : ∀ kind, ∀ record ∈ filed kind,
      RecordFormat.envelopes.reread? record = some record) (kind : EnvelopeKind) :
    Lines.load .envelopes (archiveOf filed).layout (fileOf (archiveOf filed).layout kind)
      (archiveOf filed).directory = .ok (filed kind) := by
  have hl := Layout.separate_ofDataDir "data"
  have hallowed : allows (fileOf (.ofDataDir "data") kind).text = true :=
    (hl.allowed _ ((Part.envelopes kind).file_mem _)).1
  refine (Lines.load_eq_ok_iff (plain_directoryOf filed) .envelopes _ hallowed _).mpr ?_
  have hcontent : (directoryOf filed).content (fileOf (.ofDataDir "data") kind).text =
      spell .envelopes (filed kind) := by
    refine content_of_entry ?_
    rw [directoryOf, entry?_put rfl, entry?_put rfl]
    cases kind <;> rfl
  show read .envelopes ((directoryOf filed).content _) = _
  rw [hcontent]
  exact (read_spell_eq_ok_iff RecordFormat.visible_envelopes _ _).mpr
    (List.map_congr_left (hreads kind))

theorem openAt_directoryOf {filed : EnvelopeKind → List StoredEnvelope}
    (hreads : ∀ kind, ∀ record ∈ filed kind,
      RecordFormat.envelopes.reread? record = some record) :
    openAt (.ofDataDir "data") ⟨.ofNat, 1⟩ (directoryOf filed) =
      (.ok (archiveOf filed), directoryOf filed) := by
  have hload : load (.ofDataDir "data") (directoryOf filed) =
      .ok (.ofRecords (filed .event ++ filed .snapshot) []) :=
    load_eq_ok_iff_loads.mpr ⟨filed, [], load_archiveOf hreads, rfl, rfl⟩
  rw [openAt_eq (Layout.separate_ofDataDir _), (plain_directoryOf filed).made_eq, hload]
  rfl

/-- Without seals a replacement of what is held succeeds. -/
theorem replace_archiveOf (filed : EnvelopeKind → List StoredEnvelope) (id : UniqueId)
    (hid : ((archiveOf filed).memory.ledger.locate id).isSome) (r : Option Envelope) :
    ∃ t, registry.replace id r (archiveOf filed) = (.ok true, t) ∧
      t.memory.ledger = (archiveOf filed).memory.ledger.replace id r := by
  have heffect := (replace_follows (consistent_archiveOf filed) id r).unsealed rfl
  have hmemory : MemoryEvents.replace id r (archiveOf filed).memory =
      (.ok true, ⟨(archiveOf filed).memory.ledger.replace id r, ⟨.ofNat, 1⟩⟩) := by
    simp only [MemoryEvents.replace, MemoryEvents.onLedger, hid]
    rfl
  rw [hmemory] at heffect
  refine ⟨(replace id r (archiveOf filed)).2, Prod.ext ?_ rfl, ?_⟩
  · exact (Prod.ext_iff.mp heffect).1
  · exact congrArg MemoryEvents.ledger (Prod.ext_iff.mp heffect).2

/-- A file of events with one id twice, and one of snapshots. -/
def twiceStored : EnvelopeKind → List StoredEnvelope
  | .event => [⟨.ofNat 1, MemoryEvents.cartEvent⟩, ⟨.ofNat 1, MemoryEvents.cartEvent⟩]
  | .snapshot => [⟨.ofNat 2, MemoryEvents.walletSnapshot⟩]

/-- The event once it is deleted. -/
def buriedEvent : Envelope := MemoryEvents.cartEvent.tombstone ⟨5⟩

/-- An event that stands in its file twice becomes a tombstone, and the snapshot stays. -/
theorem find?_of_replaced_twiceStored :
    ∃ t fresh,
      registry.replace (.ofNat 1) (some buriedEvent) (archiveOf twiceStored) = (.ok true, t) ∧
      openAt (.ofDataDir "data") ⟨.ofNat, 1⟩ t.directory = (.ok fresh, t.directory) ∧
      fresh.memory.ledger.find? (.ofNat 1) = some buriedEvent ∧
      fresh.memory.ledger.find? (.ofNat 2) = some MemoryEvents.walletSnapshot := by
  have hreads : ∀ kind, ∀ record ∈ twiceStored kind,
      RecordFormat.envelopes.reread? record = some record := by
    intro kind
    cases kind <;> decide +kernel
  have hplace : InPlace (archiveOf twiceStored) (.ofNat 1) (some buriedEvent) := by
    refine inPlace_of_kinds rfl (load_archiveOf hreads) ?_ ?_
    · intro kind
      cases kind <;> decide
    · intro kind huntouched
      cases kind with
      | event => exact absurd rfl (huntouched.2 _ rfl)
      | snapshot => decide +kernel
  obtain ⟨t, ht, hledger⟩ := replace_archiveOf twiceStored (.ofNat 1) (by decide +kernel)
    (some buriedEvent)
  have hback : ReadsBack t.memory.ledger := by
    rw [hledger]
    decide +kernel
  obtain ⟨fresh, hfresh, -, hfound, hother, -⟩ := find?_of_replaced ⟨.ofNat, 1⟩
    (plain_directoryOf twiceStored).ascending (openAt_directoryOf hreads) ht hplace
    fun kind _ record hrecord => hback record ((Ledger.records_sublist _ kind).subset hrecord)
  refine ⟨t, fresh, ht, hfresh, hfound, ?_⟩
  exact (hother (.ofNat 2) (by decide +kernel)).trans (by decide +kernel)

/-- One id in both files. -/
def storedAsBoth : EnvelopeKind → List StoredEnvelope
  | .event => [⟨.ofNat 1, MemoryEvents.cartEvent⟩]
  | .snapshot => [⟨.ofNat 1, MemoryEvents.walletSnapshot⟩]

/-- Whether something stands under an id when an archive is opened. -/
def findsIn (d : Directory) (id : UniqueId) : Bool :=
  match (openAt (.ofDataDir "data") ⟨.ofNat, 1⟩ d).1 with
  | .ok fresh => (fresh.memory.ledger.find? id).isSome
  | .error _ => false

/-- An id that stands in both files comes back after it was removed. -/
theorem not_find?_of_repeated :
    ¬∀ (dataDir : String) (ids : IdSupply) (d d' : Directory) (s s' : EventArchive)
      (id : UniqueId) (r : Option Envelope), d.Ordered →
      openAt (.ofDataDir dataDir) ids d = (.ok s, d') →
      registry.replace id r s = (.ok true, s') →
      ReadsBack s'.memory.ledger →
      ∃ fresh d'', openAt (.ofDataDir dataDir) ids s'.directory = (.ok fresh, d'') ∧
        fresh.memory.ledger.find? id = r := by
  intro h
  have hreads : ∀ kind, ∀ record ∈ storedAsBoth kind,
      RecordFormat.envelopes.reread? record = some record := by
    intro kind
    cases kind <;> decide +kernel
  obtain ⟨t, ht, hledger⟩ := replace_archiveOf storedAsBoth (.ofNat 1) (by decide +kernel) none
  have hback : ReadsBack t.memory.ledger := by
    rw [hledger]
    decide +kernel
  obtain ⟨fresh, d'', hfresh, hnone⟩ := h _ _ _ _ _ t (.ofNat 1) none
    (plain_directoryOf storedAsBoth).ascending (openAt_directoryOf hreads) ht hback
  have hfinds : findsIn (registry.replace (.ofNat 1) none (archiveOf storedAsBoth)).2.directory
      (.ofNat 1) = true := by decide +kernel
  rw [ht, findsIn, hfresh] at hfinds
  dsimp only at hfinds
  rw [hnone] at hfinds
  cases hfinds

end Chronicle.EventArchive
