import Chronicle.Proofs.Directory
import Chronicle.Registry.Files

set_option autoImplicit false

/-!
# What writing leaves alone

A step that writes collections of a layout changes no file but theirs and the files beside them
that they are written by. This holds in every directory, whatever its names stand for, and whether
the step succeeds or fails. Main statements: so it is for an append and for a rewrite
(`Lines.framed_append`, `Lines.framed_replaceAll`), it is kept by one step after another
(`StepLeaves.bind`), and a collection whose file is none of those loads as before
(`Leaves.load_eq`).
-/

namespace Chronicle

namespace Fallible

variable {ε σ α β : Type} {R : σ → σ → Prop}

/-- The state that the step leaves is related to the one it started from. -/
def Within (R : σ → σ → Prop) (step : Fallible ε σ α) : Prop := ∀ s, R s (step s).2

theorem Within.bind (htrans : ∀ s t u : σ, R s t → R t u → R s u) {step : Fallible ε σ α}
    {next : α → Fallible ε σ β} (h : Within R step) (hnext : ∀ a, Within R (next a)) :
    Within R (step >>= next) := by
  intro s
  have hstep := h s
  rw [bind_apply]
  cases hs : step s with
  | mk r s' =>
      rw [hs] at hstep
      cases r with
      | ok a => exact htrans _ _ _ hstep (hnext a s')
      | error e => exact hstep

theorem Within.mono {R' : σ → σ → Prop} {step : Fallible ε σ α} (h : Within R step)
    (hsub : ∀ s t, R s t → R' s t) : Within R' step := fun s => hsub _ _ (h s)

theorem Within.outcome {step : Fallible ε σ α} (h : Within R step) : Within R step.outcome :=
  fun s => h s

end Fallible

/-! ## The collections of a layout -/

/-- What a layout keeps in a file of its own. -/
inductive Holding
  | envelopes (kind : EnvelopeKind)
  | marks
  | readModels
deriving DecidableEq

namespace Holding

/-- The records of a collection. -/
abbrev Record : Holding → Type
  | envelopes _ => StoredEnvelope
  | marks => UniqueId
  | readModels => StoredReadModel

/-- The format of a collection. -/
def format : (c : Holding) → RecordFormat c.Record
  | envelopes _ => .envelopes
  | marks => .ids
  | readModels => .readModels

/-- The file of a collection. -/
def file (layout : Layout) : Holding → CollectionFileName
  | envelopes kind => EventArchive.fileOf layout kind
  | marks => layout.dispatched
  | readModels => layout.readModels

/-- What the file of a collection holds. -/
def load (layout : Layout) (d : Directory) (c : Holding) : Except RegistryError (List c.Record) :=
  Lines.load c.format layout (c.file layout) d

theorem file_mem (layout : Layout) (c : Holding) : c.file layout ∈ layout.files := by
  rcases c with (_ | _) | _ | _ <;> simp [file, EventArchive.fileOf, Layout.files]

/-- The names that are touched where collections are written. -/
def names (layout : Layout) (cs : List Holding) : List String :=
  cs.flatMap fun c => [Lines.stagingName (c.file layout).text, (c.file layout).text]

theorem mem_names_of_mem {layout : Layout} {cs : List Holding} {c : Holding} (h : c ∈ cs) :
    [Lines.stagingName (c.file layout).text, (c.file layout).text] ⊆ names layout cs :=
  fun _ hname => List.mem_flatMap.mpr ⟨c, h, hname⟩

end Holding

/-- The files of a valid layout have different names. -/
theorem Layout.nodup_of_validate {layout : Layout} (h : layout.validate = .ok ()) :
    (layout.files.map Name.text).Nodup := by
  have hnone : repeated? layout.files = none := by
    rw [validate] at h
    split at h
    · cases h
    · next hnone => exact hnone
  revert hnone
  generalize layout.files = files
  intro hnone
  induction files with
  | nil => exact List.nodup_nil
  | cons name rest ih =>
      rw [repeated?] at hnone
      cases hmem : rest.contains name with
      | true => simp only [hmem, if_true, reduceCtorEq] at hnone
      | false =>
          simp only [hmem, Bool.false_eq_true, if_false] at hnone
          refine List.nodup_cons.mpr ⟨?_, ih hnone⟩
          intro htext
          obtain ⟨other, hother, heq⟩ := List.mem_map.mp htext
          rw [Name.ext_text heq] at hother
          rw [List.contains_iff_mem.mpr hother] at hmem
          cases hmem

/-- In a valid layout, collections that are kept in one file are the same. -/
theorem Holding.file_injective {layout : Layout} (h : layout.validate = .ok ()) {c c' : Holding}
    (hfile : (c.file layout).text = (c'.file layout).text) : c = c' := by
  have hnodup := Layout.nodup_of_validate h
  simp only [Layout.files, List.map_cons, List.map_nil, List.nodup_cons, List.mem_cons,
    List.not_mem_nil, or_false, not_or] at hnodup
  obtain ⟨⟨hes, hed, her⟩, ⟨hsd, hsr⟩, hdr, -⟩ := hnodup
  rcases c with (_ | _) | _ | _ <;> rcases c' with (_ | _) | _ | _ <;>
    simp_all [file, EventArchive.fileOf]

/-! ## Frames of directories -/

namespace Directory

variable {d d' d'' : Directory}

/-- The entries of the directory are in order, as those of every map are. -/
def Ordered (d : Directory) : Prop := ∀ es, d.entries = some es → OrderedMap.Ascending es

/-- The directory stays in order, and has its entries and seals, but for the given names. -/
structure Framed (names : List String) (d d' : Directory) : Prop where
  ordered : d'.Ordered
  agrees : AgreesBut names d d'

theorem Framed.refl (names : List String) (h : d.Ordered) : Framed names d d :=
  ⟨h, .refl names d⟩

theorem Framed.trans {names : List String} (h : Framed names d d') (h' : Framed names d' d'') :
    Framed names d d'' :=
  ⟨h'.ordered, h.agrees.trans h'.agrees⟩

theorem Framed.mono {names names' : List String} (h : Framed names d d')
    (hsub : names ⊆ names') : Framed names' d d' :=
  ⟨h.ordered, h.agrees.mono hsub⟩

theorem ordered_made (h : d.Ordered) : d.made.Ordered := by
  obtain ⟨entries, sealedNames⟩ := d
  rintro es ⟨⟩
  cases entries with
  | none => exact OrderedMap.ascending_nil
  | some es => exact h es rfl

theorem framed_put (h : d.Ordered) (name : String) (entry : Entry) :
    Framed [name] d (d.put name entry) := by
  obtain ⟨entries, sealedNames⟩ := d
  cases entries with
  | none => exact ⟨h, rfl, fun _ _ => rfl⟩
  | some es =>
      refine ⟨?_, agreesBut_put rfl name entry⟩
      rintro es' ⟨⟩
      exact OrderedMap.ascending_insert _ _ (h es rfl)

theorem framed_drop (h : d.Ordered) (name : String) : Framed [name] d (d.drop name) := by
  obtain ⟨entries, sealedNames⟩ := d
  cases entries with
  | none => exact ⟨h, rfl, fun _ _ => rfl⟩
  | some es =>
      refine ⟨?_, rfl, fun n hn => ?_⟩
      · rintro es' ⟨⟩
        exact OrderedMap.ascending_erase _ (h es rfl)
      · show OrderedMap.find? n (OrderedMap.erase name es) = OrderedMap.find? n es
        rw [OrderedMap.find?_erase (h es rfl), if_neg (List.mem_singleton.not.mp hn)]

theorem framed_append (h : d.Ordered) (name : String) (text : List Char) :
    Framed [name] d (append name text d).2 := by
  unfold append
  split
  · split
    · exact framed_put h _ _
    · exact .refl _ h
    · exact framed_put h _ _
  · exact .refl _ h

end Directory

namespace Lines

open Directory

variable {α β : Type} {d d' : Directory}

theorem filing_snd (step : Fallible FileError Directory β) (d : Directory) :
    (filing step d).2 = (step d).2 := by
  unfold filing
  split
  · next hstep => rw [hstep]
  · next hstep => rw [hstep]

theorem framed_append (h : d.Ordered) (format : RecordFormat α) (file : CollectionFileName)
    (records : List α) :
    Framed [stagingName file.text, file.text] d (append format file records d).2 := by
  rw [append, filing_snd]
  exact (Directory.framed_append h _ _).mono (by simp)

theorem framed_replaceAll (h : d.Ordered) (format : RecordFormat α) (file : CollectionFileName)
    (records : List α) :
    Framed [stagingName file.text, file.text] d (replaceAll format file records d).2 := by
  have hstaged : Framed [stagingName file.text, file.text] d (staged format file records d) :=
    (framed_put h _ _).mono (by simp)
  obtain ⟨-, e, hcall⟩ | ⟨-, -, e, hcall⟩ | ⟨-, -, hcall⟩ :=
    replaceAll_cases format file records d
  · rw [hcall]
    exact .refl _ h
  · rw [hcall]
    exact hstaged
  · rw [hcall]
    have hdrop := framed_drop hstaged.ordered (stagingName file.text)
    exact (hstaged.trans (hdrop.mono (by simp))).trans
      ((framed_put hdrop.ordered _ _).mono (by simp))

/-- What a file holds is told by its entry. -/
theorem load_congr (format : RecordFormat α) (layout : Layout) {file : CollectionFileName}
    (h : d'.entry? file.text = d.entry? file.text) :
    load format layout file d' = load format layout file d := by
  rw [load, load, Directory.read, Directory.read, h]

end Lines

/-! ## Frames of steps -/

section

open Directory Fallible

variable {p q r : Layout × Directory} {cs cs' : List Holding}

/-- The layout stays, and the directory but for the files of the collections. -/
def Leaves (cs : List Holding) (p q : Layout × Directory) : Prop :=
  q.1 = p.1 ∧ (p.2.Ordered → Framed (Holding.names p.1 cs) p.2 q.2)

theorem Leaves.refl (cs : List Holding) (p : Layout × Directory) : Leaves cs p p :=
  ⟨rfl, fun h => .refl _ h⟩

theorem Leaves.trans (h : Leaves cs p q) (h' : Leaves cs q r) : Leaves cs p r := by
  refine ⟨h'.1.trans h.1, fun hp => ?_⟩
  have hq := h.2 hp
  have hr := h'.2 hq.ordered
  rw [h.1] at hr
  exact hq.trans hr

theorem Leaves.mono (h : Leaves cs p q) (hsub : cs ⊆ cs') : Leaves cs' p q := by
  refine ⟨h.1, fun hp => (h.2 hp).mono ?_⟩
  intro name hname
  obtain ⟨c, hc, hmem⟩ := List.mem_flatMap.mp hname
  exact Holding.mem_names_of_mem (hsub hc) hmem

/-- A collection that is not written, and that none is written by way of, loads what it did. -/
theorem Leaves.load_eq {layout : Layout} {d d' : Directory} {c : Holding}
    (h : Leaves cs (layout, d) (layout, d')) (hd : d.Ordered)
    (hfile : ∀ c' ∈ cs, (c.file layout).text ≠ (c'.file layout).text)
    (hstaging : ∀ c' ∈ cs, (c.file layout).text ≠ Lines.stagingName (c'.file layout).text) :
    c.load layout d' = c.load layout d := by
  refine Lines.load_congr _ _ ((h.2 hd).agrees.entry _ ?_)
  intro hname
  obtain ⟨c', hc', hmem⟩ := List.mem_flatMap.mp hname
  rcases List.mem_cons.mp hmem with heq | hmem
  · exact hstaging c' hc' heq
  · exact hfile c' hc' (List.mem_singleton.mp hmem)

/-- A step leaves all of a store but the collections, where the store is at the given place. -/
abbrev StepLeaves {σ α : Type} (place : σ → Layout × Directory) (cs : List Holding)
    (step : Call σ α) : Prop := Within (InvImage (Leaves cs) place) step

namespace StepLeaves

variable {σ α β : Type} {place : σ → Layout × Directory}

theorem done (cs : List Holding) (a : α) : StepLeaves place cs (.done a) :=
  fun s => Leaves.refl cs (place s)

theorem fail (cs : List Holding) (e : RegistryError) :
    StepLeaves place cs (.fail e : Call σ α) := fun s => Leaves.refl cs (place s)

theorem read (cs : List Holding) (f : σ → α) : StepLeaves place cs (.read f) :=
  fun s => Leaves.refl cs (place s)

theorem bind {step : Call σ α} {next : α → Call σ β} (h : StepLeaves place cs step)
    (hnext : ∀ a, StepLeaves place cs (next a)) : StepLeaves place cs (step >>= next) := by
  refine Within.bind ?_ h hnext
  intro s t u
  exact Leaves.trans

theorem mono {step : Call σ α} (h : StepLeaves place cs step) (hsub : cs ⊆ cs') :
    StepLeaves place cs' step := Within.mono h fun _ _ hleaves => hleaves.mono hsub

end StepLeaves

end

end Chronicle
