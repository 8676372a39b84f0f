import Chronicle.Proofs.EventRequests
import Chronicle.Proofs.LedgerHistory

set_option autoImplicit false

/-!
# Sessions with an archive

A session is a list of requests between which the archive may be closed and opened anew. Main
statement: an archive that starts in an empty directory answers every session as the registry in
memory answers it (`answers_eq_memory`).
-/

namespace Chronicle

/-- A step of a session with an event registry. -/
inductive SessionStep
  | request (r : EventRequest)
  /-- The registry is closed and opened anew. -/
  | reopen

namespace SessionStep

variable {σ : Type}

/-- What the steps answer, one after another. -/
def answers (perform : SessionStep → Call σ EventAnswer) :
    List SessionStep → σ → List (Except RegistryError EventAnswer)
  | [], _ => []
  | step :: rest, s => (perform step s).1 :: answers perform rest (perform step s).2

/-- How many ids the steps take. -/
def stores : List SessionStep → Nat
  | [] => 0
  | .request (.store _) :: rest => stores rest + 1
  | _ :: rest => stores rest

end SessionStep

namespace IdSupply

/-- The ids that are handed out next. -/
def upcoming (n : Nat) (ids : IdSupply) : List UniqueId :=
  (List.range n).map fun i => ids.issue (ids.issued + i)

/-- The first of the ids to come is the next one. -/
theorem upcoming_succ (n : Nat) (ids : IdSupply) :
    upcoming (n + 1) ids = ids.next :: upcoming n ids.advance := by
  rw [upcoming, List.range_succ_eq_map, List.map_cons, List.map_map]
  refine congrArg _ (List.map_congr_left fun i _ => ?_)
  show ids.issue (ids.issued + (i + 1)) = ids.issue (ids.issued + 1 + i)
  rw [Nat.add_comm i 1, Nat.add_assoc]

end IdSupply

namespace MemoryEvents

open IdSupply SessionStep

/-- A step served in memory; there is nothing to open anew. -/
def perform : SessionStep → Call MemoryEvents EventAnswer
  | .request r => r.ask registry
  | .reopen => .done .reopened

/-- The next ids are all different, and nothing stands under any of them. -/
structure Supplied (n : Nat) (m : MemoryEvents) : Prop where
  nodup : (upcoming n m.ids).Nodup
  unused : ∀ id ∈ upcoming n m.ids, m.ledger.locate id = none

variable {n : Nat} {m : MemoryEvents} {c : Contents}

/-- Nothing comes to stand under an id but by a store. -/
theorem locate_replace_eq_none (h : m.ledger.Represents c) {id : UniqueId} (id' : UniqueId)
    (replacement : Option Envelope) (hid : m.ledger.locate id = none) :
    (m.ledger.replace id' replacement).locate id = none := by
  rw [h.locate, Option.map_eq_none_iff] at hid
  rw [(h.replace id' replacement).locate, Option.map_eq_none_iff, Contents.replace]
  split
  · next hstored =>
      -- what is replaced is stored, so it stands under another id
      have hne : id ≠ id' := by
        rintro rfl
        rw [hid] at hstored
        exact absurd hstored (by simp)
      rw [Function.update_of_ne hne]
      exact hid
  · exact hid

theorem Supplied.store (h : Supplied (n + 1) m) (hc : m.ledger.Represents c) (e : Envelope) :
    Supplied n (registry.store e m).2 := by
  obtain ⟨hnodup, hunused⟩ := h
  rw [upcoming_succ] at hnodup hunused
  obtain ⟨hnext, hrest⟩ := List.nodup_cons.mp hnodup
  have hfree : c m.ids.next = none := by
    have hlocate := hunused _ List.mem_cons_self
    rw [hc.locate] at hlocate
    exact Option.map_eq_none_iff.mp hlocate
  refine ⟨hrest, fun id hid => ?_⟩
  show (m.ledger.insert m.ids.next e).locate id = none
  -- a later id is another one, so nothing came to stand under it
  have hne : id ≠ m.ids.next := fun heq => hnext (heq ▸ hid)
  rw [(hc.insert hfree e).locate, Function.update_of_ne hne, ← hc.locate]
  exact hunused id (List.mem_cons_of_mem _ hid)

/-- A step leaves ids for the stores that follow it. -/
theorem Supplied.perform {step : SessionStep} {rest : List SessionStep}
    (h : Supplied (stores (step :: rest)) m) (hc : m.ledger.Represents c) :
    Supplied (stores rest) (perform step m).2 := by
  cases step with
  | reopen => exact h
  | request r =>
      cases r with
      | store e => exact h.store hc e
      | markDispatched id => exact ⟨h.nodup, h.unused⟩
      | replace id replacement =>
          refine ⟨h.nodup, fun id' hid' => ?_⟩
          exact locate_replace_eq_none hc id replacement (h.unused id' hid')
      | deleteAll => exact ⟨h.nodup, fun _ _ => rfl⟩
      | query q order limit => exact h
      | latestSnapshot q => exact h
      | count q => exact h

theorem Supplied.fresh {r : EventRequest} {rest : List SessionStep}
    (h : Supplied (stores (.request r :: rest)) m) : r.Fresh m := by
  cases r with
  | store e =>
      have hunused := h.unused
      rw [stores, upcoming_succ] at hunused
      exact hunused _ List.mem_cons_self
  | _ => trivial

end MemoryEvents

namespace EventArchive

open SessionStep

variable {s : EventArchive}

/-- The archive is closed, and opened anew on the files that it leaves. -/
def reopen : Call EventArchive EventAnswer := fun s =>
  match openAt s.layout s.memory.ids s.directory with
  | (.ok s', _) => (.ok .reopened, s')
  | (.error e, d) => (.error e, { s with directory := d })

/-- A step served by an archive. -/
def perform : SessionStep → Call EventArchive EventAnswer
  | .request r => r.ask registry
  | .reopen => reopen

/-- An archive that is opened anew is the same one if its records read back as themselves. -/
theorem reopen_follows (h : Synced s) (hr : ReadsBack s.memory.ledger) :
    Follows s (.done .reopened) (reopen s).1 (reopen s).2 := by
  have hsame : reopen s = (.ok .reopened, s) := by
    rw [reopen, h.openAt_eq_self hr]
  rw [hsame]
  exact follows_unchanged h.toConsistent rfl

/-- Each record that is held when the registry is closed reads back from its line as itself. -/
def ReadsBackWhenClosed : List SessionStep → MemoryEvents → Prop
  | [], _ => True
  | .request r :: rest, m => ReadsBackWhenClosed rest (r.ask MemoryEvents.registry m).2
  | .reopen :: rest, m => ReadsBack m.ledger ∧ ReadsBackWhenClosed rest m

instance decidableReadsBackWhenClosed (steps : List SessionStep) (m : MemoryEvents) :
    Decidable (ReadsBackWhenClosed steps m) :=
  match steps with
  | [] => .isTrue trivial
  | .request r :: rest => decidableReadsBackWhenClosed rest (r.ask MemoryEvents.registry m).2
  | .reopen :: rest =>
      have := decidableReadsBackWhenClosed rest m
      inferInstanceAs (Decidable (ReadsBack m.ledger ∧ ReadsBackWhenClosed rest m))

/-- One step is answered as the memory answers it. -/
theorem perform_follows {step : SessionStep} {rest : List SessionStep} (h : Synced s)
    (hsupply : MemoryEvents.Supplied (stores (step :: rest)) s.memory)
    (hr : ReadsBackWhenClosed (step :: rest) s.memory) :
    Follows s (MemoryEvents.perform step) (perform step s).1 (perform step s).2 ∧
      ReadsBackWhenClosed rest (MemoryEvents.perform step s.memory).2 := by
  cases step with
  | request r => exact ⟨ask_follows h.toConsistent r hsupply.fresh, hr⟩
  | reopen => exact ⟨reopen_follows h hr.1, hr.2⟩

/--
An archive in step with its files answers the steps as its memory does, as long as it has fresh
ids, and records that read back as themselves whenever it is opened anew.
-/
theorem answers_eq_of_synced (steps : List SessionStep) (h : Synced s)
    (hs : s.directory.sealedNames = []) (hsupply : MemoryEvents.Supplied (stores steps) s.memory)
    (hr : ReadsBackWhenClosed steps s.memory) :
    answers perform steps s = answers MemoryEvents.perform steps s.memory := by
  induction steps generalizing s with
  | nil => rfl
  | cons step rest ih =>
      obtain ⟨hfollows, hrest⟩ := perform_follows h hsupply hr
      obtain ⟨hanswer, hmemory⟩ := Prod.ext_iff.mp (hfollows.unsealed hs)
      dsimp only at hanswer hmemory
      obtain ⟨c, hc⟩ := h.represents
      -- the archive is in step again, and no file has been sealed
      have hanswers := ih (hfollows.synced h) (hfollows.sealedNames.trans hs)
        (hmemory ▸ hsupply.perform hc) (hmemory ▸ hrest)
      rw [answers, answers, hanswer, hanswers, hmemory]

/--
An archive that is opened on an empty directory whose files can be written, and a registry in
memory that starts empty and is handed the same ids, answer every session alike: every list of
requests between which the archive is closed and opened anew, if the ids are all different and
each record that is held when the archive is closed reads back from its line as itself.
-/
theorem answers_eq_memory (dataDir : String) (d : Directory) (ids : IdSupply)
    (steps : List SessionStep) (empty : d.made.entries = some []) (unsealed : d.sealedNames = [])
    (distinct : (ids.upcoming (stores steps)).Nodup)
    (readsBack : ReadsBackWhenClosed steps ⟨.empty, ids⟩) :
    ∃ s d', openAt (.ofDataDir dataDir) ids d = (.ok s, d') ∧
      answers perform steps s = answers MemoryEvents.perform steps ⟨.empty, ids⟩ := by
  have hl := Layout.separate_ofDataDir dataDir
  refine ⟨_, _, openAt_empty hl empty ids, ?_⟩
  have hunsealed : d.made.sealedNames = [] := by
    rw [← unsealed]
    rfl
  exact answers_eq_of_synced steps (synced_empty hl empty ids) hunsealed
    ⟨distinct, fun _ _ => rfl⟩ readsBack

/-- An event becomes a snapshot of another entity, and is read in its new file. -/
def movingSession : List SessionStep :=
  [.request (.store MemoryEvents.cartEvent), .request (.markDispatched (.ofNat 0)),
    .request (.replace (.ofNat 0) (some MemoryEvents.walletSnapshot)),
    .request (.store MemoryEvents.cartEvent), .reopen,
    .request (.query .snapshots .newestFirst none), .request (.markDispatched (.ofNat 0)),
    .request .deleteAll, .reopen, .request (.count none)]

theorem answers_movingSession :
    ∃ s d', openAt (.ofDataDir "data") ⟨.ofNat, 0⟩ ⟨none, []⟩ = (.ok s, d') ∧
      answers perform movingSession s =
        [.ok (.id (.ofNat 0)), .ok (.verdict true), .ok (.verdict true), .ok (.id (.ofNat 1)),
          .ok .reopened, .ok (.records [⟨.ofNat 0, MemoryEvents.walletSnapshot⟩]),
          .ok (.verdict false), .ok (.number 2), .ok .reopened, .ok (.number 0)] :=
  answers_eq_memory "data" ⟨none, []⟩ ⟨.ofNat, 0⟩ movingSession rfl rfl (by decide +kernel)
    (by decide +kernel)

end EventArchive

end Chronicle
