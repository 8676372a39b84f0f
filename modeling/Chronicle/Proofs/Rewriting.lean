import Chronicle.Proofs.Directory
import Chronicle.Proofs.Ledger
import Chronicle.Registry.Files
import Mathlib.Data.List.TakeWhile

set_option autoImplicit false

/-!
# Collection files written anew

The ledger of an archive is kept in three parts, each in a file of its own. Several of them are
written anew one after the other, and the first failure ends it. Main statement: the parts before
the first that is refused are written, and all others stay as they are (`rewriteAll_spec`).
-/

namespace Chronicle

namespace Layout

variable {layout : Layout}

/-- No two of the four files have one name. -/
theorem Separate.ne_of_files (h : layout.Separate) :
    layout.events.text ≠ layout.snapshots.text ∧ layout.events.text ≠ layout.dispatched.text ∧
      layout.snapshots.text ≠ layout.dispatched.text ∧
      layout.events.text ≠ layout.readModels.text ∧
      layout.snapshots.text ≠ layout.readModels.text ∧
      layout.dispatched.text ≠ layout.readModels.text := by
  have hdistinct := h.distinct
  simp only [files, List.map_cons, List.map_nil, List.nodup_cons, List.mem_cons,
    List.not_mem_nil, or_false, not_or] at hdistinct
  obtain ⟨⟨hes, hed, her⟩, ⟨hsd, hsr⟩, hdr, -⟩ := hdistinct
  exact ⟨hes, hed, hsd, her, hsr, hdr⟩

end Layout

namespace EventArchive

/-- What one collection file holds. -/
inductive Part
  | envelopes (kind : EnvelopeKind)
  | marks
deriving DecidableEq

namespace Part

/-- The file of a part. -/
def file (layout : Layout) : Part → CollectionFileName
  | envelopes kind => fileOf layout kind
  | marks => layout.dispatched

/-- The text that a part of a ledger is written as. -/
def text (l : Ledger) : Part → List Char
  | envelopes kind => Lines.spell .envelopes (l.records kind)
  | marks => Lines.spell .ids l.dispatched

/-- Writes a part anew. -/
def rewrite : Part → Call EventArchive Unit
  | envelopes kind => persist kind
  | marks => persistDispatched

variable {layout : Layout}

theorem file_mem (layout : Layout) (p : Part) : p.file layout ∈ layout.files := by
  rcases p with (_ | _) | _ <;> simp [file, fileOf, Layout.files]

theorem readModels_mem (layout : Layout) : layout.readModels ∈ layout.files := by
  simp [Layout.files]

/-- Different parts are kept in different files. -/
theorem file_injective (h : layout.Separate) {p q : Part}
    (hpq : (p.file layout).text = (q.file layout).text) : p = q := by
  obtain ⟨hes, hed, hsd, -⟩ := h.ne_of_files
  rcases p with (_ | _) | _ <;> rcases q with (_ | _) | _
  · rfl
  · exact absurd hpq hes
  · exact absurd hpq hed
  · exact absurd hpq.symm hes
  · rfl
  · exact absurd hpq hsd
  · exact absurd hpq.symm hed
  · exact absurd hpq.symm hsd
  · rfl

theorem file_ne_readModels (h : layout.Separate) (p : Part) :
    (p.file layout).text ≠ layout.readModels.text := by
  obtain ⟨-, -, -, her, hsr, hdr⟩ := h.ne_of_files
  rcases p with (_ | _) | _
  · exact her
  · exact hsr
  · exact hdr

end Part

open Directory Lines

variable {s : EventArchive}

/-- An archive with separate files in a directory of text files. -/
structure Sound (s : EventArchive) : Prop where
  separate : s.layout.Separate
  plain : s.directory.Plain

theorem Sound.withDirectory (h : Sound s) {d : Directory} (hd : d.Plain) :
    Sound { s with directory := d } := ⟨h.separate, hd⟩

/-- Writing a part anew is writing its records anew into its file, and nothing else. -/
theorem Part.rewrite_of_replaceAll {P : Except RegistryError Unit → Directory → Prop} (p : Part)
    (h : ∀ {α : Type} (format : RecordFormat α) (records : List α),
      spell format records = p.text s.memory.ledger →
        ∃ r d, replaceAll format (p.file s.layout) records s.directory = (r, d) ∧ P r d) :
    ∃ r d, p.rewrite s = (r, { s with directory := d }) ∧ P r d := by
  cases p with
  | envelopes kind =>
      obtain ⟨r, d, hcall, hr⟩ := h .envelopes (s.memory.ledger.records kind) rfl
      refine ⟨r, d, ?_, hr⟩
      simp only [file] at hcall
      simp only [rewrite, persist, onFiles, Fallible.within, hcall]
  | marks =>
      obtain ⟨r, d, hcall, hr⟩ := h .ids s.memory.ledger.dispatched rfl
      refine ⟨r, d, ?_, hr⟩
      simp only [file] at hcall
      simp only [rewrite, persistDispatched, onFiles, Fallible.within, hcall]

/-- A part is written anew, or its file stays as it is. -/
theorem Part.rewrite_spec (h : Sound s) (p : Part) :
    ∃ r d, p.rewrite s = (r, { s with directory := d }) ∧ d.Plain ∧
      AgreesBut [stagingName (p.file s.layout).text, (p.file s.layout).text] s.directory d ∧
      (r = .ok () ∧ s.directory.rewritable (p.file s.layout).text = true ∧
          d.entry? (p.file s.layout).text = some (.file (p.text s.memory.ledger)) ∨
        (∃ e, r = .error e) ∧ s.directory.rewritable (p.file s.layout).text = false ∧
          d.entry? (p.file s.layout).text = s.directory.entry? (p.file s.layout).text) := by
  apply p.rewrite_of_replaceAll
  intro α format records htext
  rw [← htext]
  exact replaceAll_spec h.plain format _ records

/-- Writes parts anew; the first failure ends it. -/
def rewriteAll : List Part → Call EventArchive Unit
  | [] => .done ()
  | p :: rest => do
      p.rewrite
      rewriteAll rest

/-- The parts that a change of kinds touches. -/
def parts (kinds : List EnvelopeKind) (withDispatched : Bool) : List Part :=
  kinds.map .envelopes ++ if withDispatched then [.marks] else []

theorem persistKinds_eq (kinds : List EnvelopeKind) :
    persistKinds kinds = rewriteAll (kinds.map .envelopes) := by
  induction kinds with
  | nil => rfl
  | cons kind rest ih =>
      rw [persistKinds, ih]
      rfl

theorem rewriteAll_append (ps qs : List Part) :
    rewriteAll (ps ++ qs) = rewriteAll ps >>= fun _ => rewriteAll qs := by
  induction ps with
  | nil => rfl
  | cons p ps ih =>
      rw [List.cons_append, rewriteAll, rewriteAll, ih]
      exact (Fallible.bind_bind _ _ _).symm

/-- Collections are written anew as the parts that they are. -/
theorem persistAll_eq (kinds : List EnvelopeKind) (withDispatched : Bool) :
    persistAll kinds withDispatched = rewriteAll (parts kinds withDispatched) := by
  rw [parts, rewriteAll_append, persistAll, persistKinds_eq]
  cases withDispatched with
  | false => rfl
  | true =>
      have hmarks : rewriteAll [.marks] = persistDispatched := Fallible.bind_done _
      rw [if_pos rfl, if_pos rfl, hmarks]

/-- The parts before the first whose file refuses to be written anew. -/
def accepted (s : EventArchive) (ps : List Part) : List Part :=
  ps.takeWhile fun p => s.directory.rewritable (p.file s.layout).text

/-- The directory has the given parts written anew, and all other collections as they were. -/
structure Rewritten (s : EventArchive) (ps : List Part) (d : Directory) : Prop where
  plain : d.Plain
  sealedNames : d.sealedNames = s.directory.sealedNames
  written : ∀ p ∈ ps,
    d.entry? (p.file s.layout).text = some (.file (p.text s.memory.ledger))
  kept : ∀ f ∈ s.layout.files, (∀ p ∈ ps, (p.file s.layout).text ≠ f.text) →
    d.entry? f.text = s.directory.entry? f.text

theorem Rewritten.kept_part {ps : List Part} {d : Directory} (hr : Rewritten s ps d)
    (h : s.layout.Separate) {p : Part} (hp : p ∉ ps) :
    d.entry? (p.file s.layout).text = s.directory.entry? (p.file s.layout).text := by
  refine hr.kept _ (p.file_mem s.layout) ?_
  intro q hq htext
  exact hp (Part.file_injective h htext ▸ hq)

theorem rewritten_nil (h : Sound s) : Rewritten s [] s.directory :=
  ⟨h.plain, rfl, fun _ hp => absurd hp List.not_mem_nil, fun _ _ _ => rfl⟩

theorem accepted_congr (h : Sound s) {d : Directory} (hd : d.Plain)
    (hs : d.sealedNames = s.directory.sealedNames) (ps : List Part) :
    accepted { s with directory := d } ps = accepted s ps := by
  unfold accepted
  congr 1
  funext p
  exact h.plain.rewritable_congr hd hs _

/-- The parts before the first that is refused are written, and all others stay as they are. -/
theorem rewriteAll_spec (h : Sound s) (ps : List Part) :
    ∃ r d, rewriteAll ps s = (r, { s with directory := d }) ∧ Rewritten s (accepted s ps) d ∧
      (r = .ok () ∧ accepted s ps = ps ∨ (∃ e, r = .error e) ∧ accepted s ps ≠ ps) := by
  induction ps generalizing s with
  | nil => exact ⟨_, s.directory, rfl, rewritten_nil h, Or.inl ⟨rfl, rfl⟩⟩
  | cons p ps ih =>
      obtain ⟨r, d, hcall, hplain, hagrees, hr⟩ := p.rewrite_spec h
      -- neither the staging file nor the file of the part is that of another collection
      have hother : ∀ f ∈ s.layout.files, (p.file s.layout).text ≠ f.text →
          d.entry? f.text = s.directory.entry? f.text := by
        intro f hf hne
        refine hagrees.entry f.text ?_
        rw [List.mem_cons, List.mem_singleton, not_or]
        exact ⟨(h.separate.apart _ (p.file_mem s.layout) f hf).symm, hne.symm⟩
      rw [rewriteAll, Fallible.bind_apply, hcall]
      rcases hr with ⟨rfl, hrewritable, hwritten⟩ | ⟨⟨e, rfl⟩, hrefused, hentry⟩
      -- the part is written; the seals are what they were for those that follow
      · obtain ⟨r', d', hcall', hrest, hr'⟩ := ih (h.withDirectory hplain)
        rw [accepted_congr h hplain hagrees.sealedNames] at hrest hr'
        have haccepted : accepted s (p :: ps) = p :: accepted s ps :=
          List.takeWhile_cons_of_pos hrewritable
        rw [haccepted]
        refine ⟨r', d', hcall', ⟨hrest.plain, ?_, ?_, ?_⟩, ?_⟩
        · exact hrest.sealedNames.trans hagrees.sealedNames
        · intro q hq
          by_cases hmem : q ∈ accepted s ps
          · exact hrest.written q hmem
          · obtain rfl : q = p := (List.mem_cons.mp hq).resolve_right hmem
            exact (hrest.kept_part h.separate hmem).trans hwritten
        · intro f hf hne
          have hrest' := hrest.kept f hf fun q hq => hne q (List.mem_cons_of_mem _ hq)
          exact hrest'.trans (hother f hf (hne p List.mem_cons_self))
        · rcases hr' with ⟨hok, hall⟩ | ⟨herror, hsome⟩
          · exact Or.inl ⟨hok, by rw [hall]⟩
          · exact Or.inr ⟨herror, fun hcons => hsome (List.cons.inj hcons).2⟩
      -- the part is refused, and the parts that follow are not tried
      · have haccepted : accepted s (p :: ps) = [] :=
          List.takeWhile_cons_of_neg (by rw [hrefused]; exact Bool.false_ne_true)
        rw [haccepted]
        refine ⟨_, d, rfl, ⟨hplain, hagrees.sealedNames, ?_, ?_⟩, Or.inr ⟨⟨e, rfl⟩, ?_⟩⟩
        · intro q hq
          exact absurd hq List.not_mem_nil
        · intro f hf _
          by_cases hf' : (p.file s.layout).text = f.text
          · rw [← hf']
            exact hentry
          · exact hother f hf hf'
        · exact (List.cons_ne_nil _ _).symm

/-- Without seals, every part is written. -/
theorem accepted_of_unsealed (h : Sound s) (hs : s.directory.sealedNames = []) (ps : List Part) :
    accepted s ps = ps := by
  refine List.takeWhile_eq_self_iff.mpr ?_
  intro p _
  obtain ⟨hfile, hstaging⟩ := h.separate.allowed _ (p.file_mem s.layout)
  rw [rewritable, h.plain.writable_of_unsealed hs hfile, h.plain.writable_of_unsealed hs hstaging]
  rfl

end EventArchive

end Chronicle
