import Chronicle.Proofs.EventRequests
import Chronicle.Proofs.LedgerHistory

set_option autoImplicit false

/-!
# Failed requests leave no trace

Some files of an archive may refuse every write of a request. A request that fails for that
reason is undone in memory, and in the files that were written before. Main statement: this holds
of every archive that is reached from an empty directory; of its files as far as what was read
from them reads back as itself (`undone_of_failed`).
-/

namespace Chronicle.EventArchive

open Directory Lines

/-- The archive while the files of the given names refuse to be written. -/
def sealing (names : List String) (s : EventArchive) : EventArchive :=
  { s with directory := { s.directory with sealedNames := names } }

/--
The archives reached from an empty directory with the usual files: requests are served while any
files refuse to be written, and archives are closed and opened anew as far as what they then hold
is allowed.
-/
inductive Reachable (allowed : Ledger → Prop) : EventArchive → Prop
  | opened {d d' : Directory} {s : EventArchive} (dataDir : String) (ids : IdSupply)
      (empty : d.made.entries = some []) (hopen : openAt (.ofDataDir dataDir) ids d = (.ok s, d')) :
      Reachable allowed s
  | asked {s : EventArchive} (h : Reachable allowed s) (names : List String)
      (request : EventRequest) (fresh : request.Fresh s.memory) :
      Reachable allowed (request.ask registry (s.sealing names)).2
  | reopened {s s' : EventArchive} {d' : Directory} (h : Reachable allowed s) (ids : IdSupply)
      (hopen : openAt s.layout ids s.directory = (.ok s', d'))
      (hallowed : allowed s'.memory.ledger) : Reachable allowed s'

/-- The memory is the same, and each collection file loads as the same records as before. -/
structure Undone (s s' : EventArchive) : Prop where
  memory : s'.memory = s.memory
  events : SameRecords (Lines.load .envelopes s.layout s.layout.events s.directory)
    (Lines.load .envelopes s.layout s.layout.events s'.directory)
  snapshots : SameRecords (Lines.load .envelopes s.layout s.layout.snapshots s.directory)
    (Lines.load .envelopes s.layout s.layout.snapshots s'.directory)
  dispatched : SameRecords (Lines.load .ids s.layout s.layout.dispatched s.directory)
    (Lines.load .ids s.layout s.layout.dispatched s'.directory)
  readModels : Lines.load .readModels s.layout s.layout.readModels s'.directory =
    Lines.load .readModels s.layout s.layout.readModels s.directory

variable {s s' : EventArchive}

theorem Consistent.sealing (h : Consistent s) (names : List String) :
    Consistent (s.sealing names) :=
  ⟨⟨h.separate, h.plain.present, h.plain.ascending, h.plain.texts⟩, h.represents⟩

theorem Synced.sealing (h : Synced s) (names : List String) : Synced (s.sealing names) :=
  ⟨h.toConsistent.sealing names, h.mirrored⟩

/-- Whatever is read when an archive is opened anew, its collections and indices agree. -/
theorem consistent_of_reachable {allowed : Ledger → Prop} (h : Reachable allowed s) :
    Consistent s := by
  induction h with
  | opened dataDir ids empty hopen =>
      exact (Synced.of_openAt_empty (Layout.separate_ofDataDir dataDir) empty hopen).toConsistent
  | asked _ names request fresh ih =>
      exact (ask_follows (ih.sealing names) request fresh).consistent
  | reopened _ ids hopen _ ih => exact (ih.of_openAt hopen).1

/-- Archives that read what reads back as itself stay in step with their files. -/
theorem synced_of_reachable (h : Reachable ReadsBack s) : Synced s := by
  induction h with
  | opened dataDir ids empty hopen =>
      exact Synced.of_openAt_empty (Layout.separate_ofDataDir dataDir) empty hopen
  | asked _ names request fresh ih =>
      have hsealed := ih.sealing names
      exact (ask_follows hsealed.toConsistent request fresh).synced hsealed
  | reopened _ ids hopen hallowed ih => exact (ih.of_openAt hopen hallowed).1

/-- Two archives in step with their files whose memory is the same load the same. -/
theorem Synced.undone (h : Synced s) (h' : Synced s') (hl : s'.layout = s.layout)
    (hm : s'.memory = s.memory)
    (hr : s'.directory.entry? s.layout.readModels.text =
      s.directory.entry? s.layout.readModels.text) : Undone s s' := by
  have hallowed : ∀ p : Part, allows (p.file s.layout).text = true :=
    fun p => (h.separate.allowed _ (p.file_mem s.layout)).1
  have hkind : ∀ kind, SameRecords
      (Lines.load .envelopes s.layout (fileOf s.layout kind) s.directory)
      (Lines.load .envelopes s.layout (fileOf s.layout kind) s'.directory) := by
    intro kind
    have hbefore : Mirrors .envelopes _ (s.memory.ledger.records kind) :=
      h.mirrored (.envelopes kind)
    have hafter := h'.mirrored (.envelopes kind)
    rw [hl, hm] at hafter
    exact (hbefore.sameRecords RecordFormat.visible_envelopes hafter).load h.plain h'.plain
      s.layout (hallowed (.envelopes kind))
  refine ⟨hm, hkind .event, hkind .snapshot, ?_, ?_⟩
  · have hbefore : Mirrors .ids _ s.memory.ledger.dispatched := h.mirrored .marks
    have hafter := h'.mirrored .marks
    rw [hl, hm] at hafter
    exact (hbefore.sameRecords RecordFormat.visible_ids hafter).load h.plain h'.plain s.layout
      (hallowed .marks)
  · rw [Lines.load, Lines.load, Directory.read, Directory.read, hr]

/--
Whatever files refuse to be written while a request is served: if it fails, the memory is what it
was. Each collection file loads the records that it loaded before, those files included that had
been written anew when a later one refused, if all that was read before reads back as itself.
-/
theorem undone_of_failed (h : Reachable (fun _ => True) s) (names : List String)
    (request : EventRequest) (fresh : request.Fresh s.memory)
    (failed : ¬(request.ask registry (s.sealing names)).1.isOk = true) :
    (request.ask registry (s.sealing names)).2.memory = s.memory ∧
      (Reachable ReadsBack s → Undone s (request.ask registry (s.sealing names)).2) := by
  have hfollows := ask_follows ((consistent_of_reachable h).sealing names) request fresh
  have hmemory : (request.ask registry (s.sealing names)).2.memory = s.memory := by
    rcases hfollows.effect with heffect | ⟨-, hmemory⟩
    -- in memory no request fails
    · have hok := MemoryEvents.ask_isOk request (s.sealing names).memory
      rw [← heffect] at hok
      exact absurd hok failed
    · exact hmemory
  refine ⟨hmemory, fun hread => ?_⟩
  have hsynced := synced_of_reachable hread
  exact hsynced.undone (hfollows.synced (hsynced.sealing names)) hfollows.layout hmemory
    hfollows.readModels

/-! ## An archive with one payment -/

/-- A payment: an event of the cart with the amount as its payload. -/
def payment (amount : Json) : Envelope := { MemoryEvents.cartEvent with value := amount }

/-- An archive in a new directory. -/
def newArchive : EventArchive :=
  ⟨.ofDataDir "data", (⟨none, []⟩ : Directory).made, ⟨.empty, ⟨.ofNat, 1⟩⟩⟩

/-- The archive with a payment in it. -/
def withPayment (amount : Json) : EventArchive :=
  ((EventRequest.store (payment amount)).ask registry (newArchive.sealing [])).2

theorem reachable_withPayment (allowed : Ledger → Prop) (amount : Json) :
    Reachable allowed (withPayment amount) := by
  have hempty : (⟨none, []⟩ : Directory).made.entries = some [] := rfl
  have hopened : Reachable allowed newArchive :=
    .opened "data" ⟨.ofNat, 1⟩ hempty (openAt_empty (Layout.separate_ofDataDir _) hempty _)
  exact hopened.asked [] (.store (payment amount)) rfl

theorem undone_of_failed_replacement :
    Undone (withPayment (.ofNat 3))
      ((EventRequest.replace (.ofNat 1) (some MemoryEvents.walletSnapshot)).ask registry
        ((withPayment (.ofNat 3)).sealing ["snapshots.jsonl"])).2 :=
  (undone_of_failed (reachable_withPayment _ (.ofNat 3)) ["snapshots.jsonl"]
    (.replace (.ofNat 1) (some MemoryEvents.walletSnapshot)) trivial (by decide +kernel)).2
    (reachable_withPayment _ _)

/-! ## An amount that changes whenever it is read -/

/-- An amount as it is read from a text; what it is written as reads as a smaller one. -/
def driftingAmount : Json := (Json.read? "3e49".toList).getD .null

/-- The archive with such a payment, opened anew. -/
def reopenedDrifting : EventArchive :=
  let s := withPayment driftingAmount
  match openAt s.layout s.memory.ids s.directory with
  | (.ok s', _) => s'
  | (.error _, _) => s

/-- The numbers paid, of the records that were loaded. -/
def amounts : Except RegistryError (List StoredEnvelope) → List (Option Number)
  | .ok rs => rs.map fun r =>
      match r.envelope.value with
      | .number n => some n
      | _ => none
  | .error _ => []

theorem Undone.amounts_perm (h : Undone s s') :
    (amounts (Lines.load .envelopes s.layout s.layout.events s.directory)).Perm
      (amounts (Lines.load .envelopes s.layout s.layout.events s'.directory)) := by
  have hevents := h.events
  revert hevents
  generalize Lines.load .envelopes s.layout s.layout.events s.directory = a
  generalize Lines.load .envelopes s.layout s.layout.events s'.directory = b
  intro hevents
  cases a with
  | ok rs =>
      cases b with
      | ok ss => exact List.Perm.map _ hevents
      | error e => exact absurd hevents id
  | error e =>
      cases b with
      | ok ss => exact absurd hevents id
      | error e' => exact .refl _

/-- If anything may be read when an archive is opened anew, a failed request can leave a trace. -/
theorem not_undone_of_drifting :
    ¬∀ (s : EventArchive) (names : List String) (request : EventRequest),
      Reachable (fun _ => True) s → request.Fresh s.memory →
      ¬(request.ask registry (s.sealing names)).1.isOk = true →
      Undone s (request.ask registry (s.sealing names)).2 := by
  intro h
  have hreopened : Reachable (fun _ => True) reopenedDrifting := by
    unfold reopenedDrifting
    dsimp only
    split
    · next hopen => exact (reachable_withPayment _ _).reopened _ hopen trivial
    · exact reachable_withPayment _ _
  -- the events are written anew before the snapshots refuse
  have hundone := h reopenedDrifting ["snapshots.jsonl"]
    (.replace (.ofNat 1) (some MemoryEvents.walletSnapshot)) hreopened trivial (by decide +kernel)
  exact absurd hundone.amounts_perm (by decide +kernel)

end Chronicle.EventArchive
