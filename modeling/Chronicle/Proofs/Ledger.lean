import Chronicle.Event.Ledger
import Chronicle.Proofs.Index
import Mathlib.Data.List.Induction
import Mathlib.Logic.Function.Basic

set_option autoImplicit false

/-!
# The contents of a ledger

A ledger represents one finite map from ids to envelopes: each envelope stands in the collection
of its kind, and the index of that collection leads to it from its entity. The operations on a
ledger are updates of the map that it represents. Main statements: a ledger is determined by the
map and the dispatched ids (`Represents.ext`), and the candidates that a query finds through an
index are those of a scan (`Represents.filter_candidates`).
-/

namespace Chronicle

namespace Collection

variable {c : Collection} {id : UniqueId} {e : Envelope}

/-- Ids and index ascend, and the index pairs each stored envelope's entity with its id. -/
structure WellFormed (c : Collection) : Prop where
  items : OrderedMap.Ascending c.items
  index : Index.WellFormed c.byEntity
  indexed : ∀ entity id, id ∈ Index.get entity c.byEntity ↔
    ∃ e, OrderedMap.find? id c.items = some e ∧ e.entity = entity

theorem wellFormed_empty : WellFormed empty where
  items := OrderedMap.ascending_nil
  index := Index.wellFormed_nil
  indexed _ _ := by simp [empty, Index.get]

/-- A new id keeps the collection well-formed; an id in use might leave its old entity behind. -/
theorem WellFormed.insert (h : c.WellFormed) (hid : OrderedMap.find? id c.items = none)
    (e : Envelope) : (c.insert id e).WellFormed where
  items := OrderedMap.ascending_insert _ _ h.items
  index := h.index.insert _ _
  indexed entity id' := by
    simp only [Collection.insert, Index.mem_get_insert, OrderedMap.find?_insert, h.indexed]
    -- under a new id only the new envelope's entity is paired with it
    by_cases hii : id' = id
    · subst hii
      simp [hid, eq_comm]
    · simp [hii]

theorem WellFormed.erase (h : c.WellFormed) (id : UniqueId) : (c.erase id).WellFormed := by
  unfold Collection.erase
  cases hid : OrderedMap.find? id c.items with
  | none => exact h
  | some e =>
      refine ⟨OrderedMap.ascending_erase _ h.items, h.index.erase _ _, ?_⟩
      intro entity id'
      simp only [Index.mem_get_erase h.index, OrderedMap.find?_erase h.items, h.indexed]
      -- the entity that goes is that of the envelope that goes
      by_cases hii : id' = id
      · subst hii
        simp [hid, eq_comm]
      · simp [hii]

theorem find?_items_erase (h : c.WellFormed) (id id' : UniqueId) :
    OrderedMap.find? id' (c.erase id).items =
      if id' = id then none else OrderedMap.find? id' c.items := by
  unfold erase
  cases hid : OrderedMap.find? id c.items with
  | none =>
      by_cases hii : id' = id
      · simp [hii, hid]
      · simp [hii]
  | some e => exact OrderedMap.find?_erase h.items id id'

/-- Well-formed collections with the same items have the same index. -/
theorem WellFormed.ext {d : Collection} (h : c.WellFormed) (h' : d.WellFormed)
    (hfind : ∀ id, OrderedMap.find? id c.items = OrderedMap.find? id d.items) : c = d := by
  have hitems : c.items = d.items := OrderedMap.ext h.items h'.items hfind
  have hindex : c.byEntity = d.byEntity := by
    refine h.index.ext h'.index ?_
    intro entity id
    rw [h.indexed, h'.indexed, hfind]
  cases c
  cases d
  simp_all

theorem mem_records (h : c.WellFormed) (r : StoredEnvelope) :
    r ∈ c.records ↔ OrderedMap.find? r.id c.items = some r.envelope := by
  rw [OrderedMap.find?_eq_some_iff h.items, records, List.mem_map]
  constructor
  · rintro ⟨e, he, rfl⟩
    exact he
  · intro hr
    exact ⟨_, hr, rfl⟩

/-- The records of a collection stand in the order of their ids. -/
theorem ascending_records (h : c.WellFormed) :
    c.records.Pairwise fun r s => compare r.id s.id = .lt :=
  List.pairwise_map.mpr h.items

/-- The index of a collection leads to the records of an entity, in the order of their ids. -/
theorem ofEntity_eq_filter (h : c.WellFormed) (entity : EntityKey) :
    c.ofEntity entity = c.records.filter fun r => r.envelope.entity = entity := by
  -- both lists ascend in their ids: it is enough that they have the same records
  refine eq_of_ascending StoredEnvelope.id ?_ ((ascending_records h).filter _) ?_
  · refine (Index.ascending_get h.index entity).filterMap _ ?_
    intro id id' hlt r hr r' hr'
    obtain ⟨_, _, rfl⟩ := Option.map_eq_some_iff.mp hr
    obtain ⟨_, _, rfl⟩ := Option.map_eq_some_iff.mp hr'
    exact hlt
  · intro r
    simp only [ofEntity, List.mem_filterMap, List.mem_filter, mem_records h, h.indexed,
      Option.map_eq_some_iff, decide_eq_true_eq]
    constructor
    · rintro ⟨id, ⟨e, he, hentity⟩, e', he', rfl⟩
      rw [he] at he'
      cases he'
      exact ⟨he, hentity⟩
    · rintro ⟨hr, hentity⟩
      exact ⟨r.id, ⟨r.envelope, hr, hentity⟩, r.envelope, hr, rfl⟩

end Collection

/-- A finite map from ids to envelopes. -/
abbrev Contents := UniqueId → Option Envelope

namespace Contents

/-- The map without envelopes. -/
def empty : Contents := fun _ => none

/-- The map of given records; of records with one id the last stays. -/
def ofRecords (records : List StoredEnvelope) : Contents :=
  records.foldl (fun c r => Function.update c r.id (some r.envelope)) empty

/-- Puts an envelope in the place of what stands under an id, or just takes that away. -/
def replace (c : Contents) (id : UniqueId) (replacement : Option Envelope) : Contents :=
  if (c id).isSome then Function.update c id replacement else c

theorem ofRecords_concat (records : List StoredEnvelope) (r : StoredEnvelope) :
    ofRecords (records ++ [r]) = Function.update (ofRecords records) r.id (some r.envelope) := by
  rw [ofRecords, List.foldl_append]
  rfl

/-- What comes later stays: the earlier records count where the later ones say nothing. -/
theorem ofRecords_append (earlier later : List StoredEnvelope) (id : UniqueId) :
    ofRecords (earlier ++ later) id = (ofRecords later id).or (ofRecords earlier id) := by
  induction later using List.reverseRecOn with
  | nil =>
      rw [List.append_nil]
      rfl
  | append_singleton later r ih =>
      rw [← List.append_assoc, ofRecords_concat, ofRecords_concat, Function.update_apply,
        Function.update_apply]
      by_cases hid : id = r.id
      · rw [if_pos hid, if_pos hid, Option.some_or]
      · rw [if_neg hid, if_neg hid, ih]

/-- What stands under an id comes from one of the records with that id. -/
theorem mem_of_ofRecords {records : List StoredEnvelope} {id : UniqueId} {e : Envelope}
    (h : ofRecords records id = some e) : (⟨id, e⟩ : StoredEnvelope) ∈ records := by
  induction records using List.reverseRecOn with
  | nil => cases h
  | append_singleton records r ih =>
      rw [ofRecords_concat, Function.update_apply] at h
      rw [List.mem_append, List.mem_singleton]
      by_cases hid : id = r.id
      · rw [if_pos hid] at h
        obtain rfl := Option.some.inj h
        subst hid
        exact Or.inr rfl
      · rw [if_neg hid] at h
        exact Or.inl (ih h)

/-- The map of records with different ids leads to each of them. -/
theorem ofRecords_eq_some_iff {records : List StoredEnvelope}
    (hids : (records.map StoredEnvelope.id).Nodup) (id : UniqueId) (e : Envelope) :
    ofRecords records id = some e ↔ (⟨id, e⟩ : StoredEnvelope) ∈ records := by
  induction records using List.reverseRecOn with
  | nil => simp [ofRecords, empty]
  | append_singleton records r ih =>
      rw [List.map_append, List.nodup_append] at hids
      obtain ⟨hids, -, hnew⟩ := hids
      rw [ofRecords_concat, List.mem_append, List.mem_singleton, Function.update_apply]
      -- the last record is the one that stays; under its id no other stands
      by_cases hid : id = r.id
      · subst hid
        have hnot : (⟨r.id, e⟩ : StoredEnvelope) ∉ records := by
          intro hmem
          exact hnew r.id (List.mem_map.mpr ⟨_, hmem, rfl⟩) r.id (by simp) rfl
        simp only [if_pos, Option.some.injEq, hnot, false_or]
        constructor
        · rintro rfl
          rfl
        · intro h
          rw [← h]
      · have hne : (⟨id, e⟩ : StoredEnvelope) ≠ r := by
          rintro rfl
          exact hid rfl
        simp [hid, hne, ih hids]

end Contents

namespace Ledger

variable {l m : Ledger} {c : Contents} {id : UniqueId}

/-- The ledger holds the envelopes of the map, each in the collection of its kind. -/
structure Represents (l : Ledger) (c : Contents) : Prop where
  collections : ∀ kind, (l.collection kind).WellFormed
  found : ∀ kind id, OrderedMap.find? id (l.collection kind).items =
    (c id).filter fun e => e.kind = kind
  dispatched : OrderedSet.Ascending l.dispatched

theorem collection_modify (kind kind' : EnvelopeKind) (f : Collection → Collection) (l : Ledger) :
    (l.modify kind f).collection kind' =
      if kind' = kind then f (l.collection kind') else l.collection kind' := by
  cases kind <;> cases kind' <;> rfl

@[simp] theorem dispatched_modify (kind : EnvelopeKind) (f : Collection → Collection)
    (l : Ledger) : (l.modify kind f).dispatched = l.dispatched := by
  cases kind <;> rfl

@[simp] theorem collection_withDispatched (kind : EnvelopeKind) (ids : OrderedSet UniqueId)
    (l : Ledger) : { l with dispatched := ids }.collection kind = l.collection kind := by
  cases kind <;> rfl

theorem erase_of_locate_none (h : l.locate id = none) : l.erase id = l := by
  simp [erase, h]

theorem erase_of_locate_some {kind : EnvelopeKind} (h : l.locate id = some kind) :
    l.erase id = l.modify kind (Collection.erase id) := by
  simp [erase, h]

@[simp] theorem dispatched_erase (id : UniqueId) (l : Ledger) :
    (l.erase id).dispatched = l.dispatched := by
  cases h : l.locate id with
  | none => rw [erase_of_locate_none h]
  | some kind => rw [erase_of_locate_some h, dispatched_modify]

@[simp] theorem dispatched_insert (id : UniqueId) (e : Envelope) (l : Ledger) :
    (l.insert id e).dispatched = l.dispatched := dispatched_modify _ _ _

/-- Ledgers with the same collections and the same dispatched ids are equal. -/
theorem ext_collection (h : ∀ kind, l.collection kind = m.collection kind)
    (hd : l.dispatched = m.dispatched) : l = m := by
  have he : l.events = m.events := h .event
  have hs : l.snapshots = m.snapshots := h .snapshot
  cases l
  cases m
  simp_all

/-- A ledger is given by the map that it represents and the dispatched ids. -/
theorem Represents.ext (hl : l.Represents c) (hm : m.Represents c)
    (hd : l.dispatched = m.dispatched) : l = m := by
  refine ext_collection ?_ hd
  intro kind
  refine (hl.collections kind).ext (hm.collections kind) ?_
  intro id
  rw [hl.found, hm.found]

theorem Represents.find?_eq_some_iff (h : l.Represents c) (kind : EnvelopeKind) (id : UniqueId)
    (e : Envelope) :
    OrderedMap.find? id (l.collection kind).items = some e ↔ c id = some e ∧ e.kind = kind := by
  rw [h.found, Option.filter_eq_some_iff, decide_eq_true_eq]

/-- What stands under an id stands in the collection of its kind. -/
theorem Represents.locate (h : l.Represents c) (id : UniqueId) :
    l.locate id = (c id).map Envelope.kind := by
  have hevents := h.found .event id
  have hsnapshots := h.found .snapshot id
  simp only [collection] at hevents hsnapshots
  simp only [Ledger.locate, Collection.contains, OrderedMap.contains, hevents, hsnapshots]
  -- an envelope is found in one collection only, that of its kind
  cases hc : c id with
  | none => simp
  | some e => cases hk : e.kind <;> simp [Option.filter, hk]

/-- What stands under an id, in whichever collection. -/
def find? (id : UniqueId) (l : Ledger) : Option Envelope :=
  (OrderedMap.find? id l.events.items).or (OrderedMap.find? id l.snapshots.items)

theorem Represents.find?_eq (h : l.Represents c) (id : UniqueId) : l.find? id = c id := by
  have hevents := h.found .event id
  have hsnapshots := h.found .snapshot id
  simp only [collection] at hevents hsnapshots
  rw [find?, hevents, hsnapshots]
  cases hc : c id with
  | none => rfl
  | some e => cases hk : e.kind <;> simp [Option.filter, hk]

/-! ## What the operations do to the contents -/

theorem represents_empty : empty.Represents .empty where
  collections kind := by cases kind <;> exact Collection.wellFormed_empty
  found kind id := by cases kind <;> rfl
  dispatched := OrderedSet.ascending_nil

/-- An envelope under a new id is one more entry. -/
theorem Represents.insert (h : l.Represents c) (hid : c id = none) (e : Envelope) :
    (l.insert id e).Represents (Function.update c id (some e)) := by
  have hnew : ∀ kind, OrderedMap.find? id (l.collection kind).items = none := by
    intro kind
    rw [h.found, hid]
    rfl
  refine ⟨?_, ?_, ?_⟩
  -- only the collection of the envelope's kind changes
  · intro kind
    rw [Ledger.insert, collection_modify]
    by_cases hk : kind = e.kind
    · rw [if_pos hk]
      exact (h.collections kind).insert (hnew kind) e
    · rw [if_neg hk]
      exact h.collections kind
  · intro kind id'
    rw [Ledger.insert, collection_modify, Function.update_apply]
    -- the new entry is found in that collection, and nothing else anywhere
    by_cases hk : kind = e.kind
    · rw [if_pos hk, Collection.insert, OrderedMap.find?_insert, h.found]
      by_cases hii : id' = id
      · simp [hii, hk, Option.filter]
      · simp [hii]
    · rw [if_neg hk]
      by_cases hii : id' = id
      · simp [hii, hnew, Option.filter, Ne.symm hk]
      · simp [hii, h.found]
  · rw [dispatched_insert]
    exact h.dispatched

theorem Represents.erase (h : l.Represents c) (id : UniqueId) :
    (l.erase id).Represents (Function.update c id none) := by
  cases hc : c id with
  | none =>
      rw [erase_of_locate_none (by simp [h.locate, hc]), ← hc, Function.update_eq_self]
      exact h
  | some e =>
      rw [erase_of_locate_some (by simp [h.locate, hc]; rfl)]
      refine ⟨?_, ?_, ?_⟩
      · intro kind
        rw [collection_modify]
        split
        · exact (h.collections kind).erase id
        · exact h.collections kind
      · intro kind id'
        rw [collection_modify, Function.update_apply]
        -- what stood under the id was in no collection but that of its kind
        by_cases hk : kind = e.kind
        · rw [if_pos hk, Collection.find?_items_erase (h.collections kind), h.found]
          by_cases hii : id' = id <;> simp [hii]
        · rw [if_neg hk, h.found]
          by_cases hii : id' = id
          · simp [hii, hc, Option.filter, Ne.symm hk]
          · simp [hii]
      · rw [dispatched_modify]
        exact h.dispatched

theorem Represents.load (h : l.Represents c) (r : StoredEnvelope) :
    (l.load r).Represents (Function.update c r.id (some r.envelope)) := by
  have := (h.erase r.id).insert (Function.update_self r.id none c) r.envelope
  rwa [Function.update_idem] at this

theorem Represents.foldl_load (h : l.Represents c) (records : List StoredEnvelope) :
    (records.foldl (fun l r => l.load r) l).Represents
      (records.foldl (fun c r => Function.update c r.id (some r.envelope)) c) := by
  induction records generalizing l c with
  | nil => exact h
  | cons r records ih => exact ih (h.load r)

/-- The ledger does not depend on how the dispatched ids came to it. -/
theorem Represents.withDispatched (h : l.Represents c) {ids : OrderedSet UniqueId}
    (hids : OrderedSet.Ascending ids) : { l with dispatched := ids }.Represents c where
  collections kind := by
    rw [collection_withDispatched]
    exact h.collections kind
  found kind id := by rw [collection_withDispatched, h.found]
  dispatched := hids

theorem represents_ofRecords (records : List StoredEnvelope) (dispatched : List UniqueId) :
    (ofRecords records dispatched).Represents (.ofRecords records) :=
  (represents_empty.foldl_load records).withDispatched (OrderedSet.ascending_ofElements dispatched)

theorem Represents.replace (h : l.Represents c) (id : UniqueId)
    (replacement : Option Envelope) :
    (l.replace id replacement).Represents (c.replace id replacement) := by
  unfold Ledger.replace Contents.replace
  rw [h.locate]
  cases hc : c id with
  | none => exact h
  | some old =>
      cases replacement with
      | none => exact h.erase id
      | some e =>
          -- the old envelope goes first, so that the new one comes under a free id
          have := (h.erase id).insert (Function.update_self id none c) e
          rwa [Function.update_idem] at this

theorem Represents.mark (h : l.Represents c) (id : UniqueId) : (l.mark id).Represents c :=
  h.withDispatched (OrderedSet.ascending_insert id h.dispatched)

theorem Represents.unmark (h : l.Represents c) (id : UniqueId) : (l.unmark id).Represents c :=
  h.withDispatched (OrderedSet.ascending_erase id h.dispatched)

/-! ## Records and queries -/

theorem Represents.mem_records (h : l.Represents c) (kind : EnvelopeKind) (r : StoredEnvelope) :
    r ∈ l.records kind ↔ c r.id = some r.envelope ∧ r.envelope.kind = kind := by
  rw [Ledger.records, Collection.mem_records (h.collections kind), h.find?_eq_some_iff]

/-- The records of a ledger are the entries of its map. -/
theorem Represents.mem_allRecords (h : l.Represents c) (r : StoredEnvelope) :
    r ∈ l.allRecords ↔ c r.id = some r.envelope := by
  rw [allRecords, List.mem_append, h.mem_records, h.mem_records]
  cases r.envelope.kind <;> simp

/-- No two records of a ledger have one id. -/
theorem Represents.nodup_allRecords (h : l.Represents c) :
    (l.allRecords.map StoredEnvelope.id).Nodup := by
  have hkind : ∀ kind, (l.records kind).Pairwise fun r s => r.id ≠ s.id := by
    intro kind
    refine (Collection.ascending_records (h.collections kind)).imp ?_
    intro r s hlt
    exact ne_of_compare_ne (by simp [hlt])
  rw [List.nodup_iff_pairwise_ne, List.pairwise_map, allRecords, List.pairwise_append]
  refine ⟨hkind .event, hkind .snapshot, ?_⟩
  -- an event and a snapshot under one id would be the same envelope
  intro r hr s hs hid
  rw [h.mem_records] at hr hs
  rw [hid, hs.1] at hr
  have hkinds : s.envelope.kind = r.envelope.kind := congrArg _ (Option.some.inj hr.1)
  rw [hr.2, hs.2] at hkinds
  exact EnvelopeKind.noConfusion hkinds

theorem records_sublist (l : Ledger) (kind : EnvelopeKind) :
    (l.records kind).Sublist l.allRecords := by
  cases kind with
  | event => exact List.sublist_append_left _ _
  | snapshot => exact List.sublist_append_right _ _

/-- No two records of a kind are the same. -/
theorem Represents.nodup_records (h : l.Represents c) (kind : EnvelopeKind) :
    (l.records kind).Nodup := by
  exact h.nodup_allRecords.of_map.sublist (records_sublist l kind)

/-- The records of a kind are the entries of the map that have the kind. -/
theorem Represents.ofRecords_records (h : l.Represents c) (kind : EnvelopeKind) (id : UniqueId) :
    Contents.ofRecords (l.records kind) id = (c id).filter fun e => e.kind = kind := by
  have hids : ((l.records kind).map StoredEnvelope.id).Nodup :=
    h.nodup_allRecords.sublist ((records_sublist l kind).map _)
  refine Option.ext fun e => ?_
  rw [Contents.ofRecords_eq_some_iff hids, h.mem_records, Option.filter_eq_some_iff,
    decide_eq_true_eq]

/-- Of given records with different ids, those of a kind are the records of that kind. -/
theorem records_ofRecords_perm {records : List StoredEnvelope}
    (hids : (records.map StoredEnvelope.id).Nodup) (dispatched : List UniqueId)
    (kind : EnvelopeKind) :
    ((ofRecords records dispatched).records kind).Perm
      (records.filter fun r => r.envelope.kind = kind) := by
  have hr := represents_ofRecords records dispatched
  rw [List.perm_ext_iff_of_nodup (hr.nodup_records kind) (hids.of_map.filter _)]
  intro r
  rw [hr.mem_records, Contents.ofRecords_eq_some_iff hids, List.mem_filter, decide_eq_true_eq]

/-- A ledger is given by its records and dispatched ids, in whatever order. -/
theorem Represents.ofRecords_eq (h : l.Represents c) {records : List StoredEnvelope}
    {dispatched : List UniqueId} (hrecords : records.Perm l.allRecords)
    (hdispatched : dispatched.Perm l.dispatched) : ofRecords records dispatched = l := by
  have hids : (records.map StoredEnvelope.id).Nodup :=
    (hrecords.map _).nodup_iff.mpr h.nodup_allRecords
  have hcontents : Contents.ofRecords records = c := by
    funext id
    refine Option.ext fun e => ?_
    rw [Contents.ofRecords_eq_some_iff hids, hrecords.mem_iff, h.mem_allRecords]
  refine (hcontents ▸ represents_ofRecords records dispatched).ext h ?_
  refine OrderedSet.ext (OrderedSet.ascending_ofElements _) h.dispatched fun id => ?_
  exact OrderedSet.mem_ofElements.trans hdispatched.mem_iff

/-- An envelope under a new id is one more record of its kind. -/
theorem Represents.records_insert_perm (h : l.Represents c) (hid : c id = none) (e : Envelope) :
    ((l.insert id e).records e.kind).Perm (⟨id, e⟩ :: l.records e.kind) := by
  have hnot : (⟨id, e⟩ : StoredEnvelope) ∉ l.records e.kind := by
    rw [h.mem_records, hid]
    simp
  have hr := h.insert hid e
  -- neither list repeats a record, so it is enough that they have the same ones
  rw [List.perm_ext_iff_of_nodup (hr.nodup_records e.kind)
    (List.nodup_cons.mpr ⟨hnot, h.nodup_records e.kind⟩)]
  intro r
  rw [hr.mem_records, List.mem_cons, h.mem_records, Function.update_apply]
  by_cases hrid : r.id = id
  · subst hrid
    rw [if_pos rfl, hid]
    constructor
    · rintro ⟨he, -⟩
      rw [Option.some.inj he]
      exact Or.inl rfl
    · rintro (hr | ⟨habsent, -⟩)
      · have henvelope : r.envelope = e := congrArg StoredEnvelope.envelope hr
        rw [henvelope]
        exact ⟨rfl, rfl⟩
      · cases habsent
  · have hne : r ≠ ⟨id, e⟩ := fun hr => hrid (congrArg StoredEnvelope.id hr)
    rw [if_neg hrid]
    simp [hne]

/-- The records of other kinds stay as they are. -/
theorem records_insert_of_ne {kind : EnvelopeKind} {e : Envelope} (hk : kind ≠ e.kind) :
    (l.insert id e).records kind = l.records kind := by
  rw [records, records, insert, collection_modify, if_neg hk]

/-- A replacement leaves the records of a kind that neither it nor what it replaces has. -/
theorem records_replace_of_ne {kind old : EnvelopeKind} {replacement : Option Envelope}
    (hold : l.locate id = some old) (hk : kind ≠ old)
    (hnew : ∀ e, replacement = some e → kind ≠ e.kind) :
    (l.replace id replacement).records kind = l.records kind := by
  have herase : (l.erase id).records kind = l.records kind := by
    rw [erase_of_locate_some hold, records, records, collection_modify, if_neg hk]
  unfold Ledger.replace
  rw [hold]
  cases replacement with
  | none => exact herase
  | some e => exact (records_insert_of_ne (hnew e rfl)).trans herase

@[simp] theorem dispatched_replace (id : UniqueId) (replacement : Option Envelope) (l : Ledger) :
    (l.replace id replacement).dispatched = l.dispatched := by
  unfold replace
  cases l.locate id with
  | none => rfl
  | some kind => cases replacement <;> simp

theorem Represents.not_mem_dispatched (h : l.Represents c) (hid : l.isDispatched id = false) :
    id ∉ l.dispatched := by
  rw [← OrderedSet.contains_iff_mem h.dispatched, ← isDispatched, hid]
  exact Bool.false_ne_true

/-- A mark for an id without one is one more dispatched id. -/
theorem Represents.dispatched_mark_perm (h : l.Represents c) (hid : l.isDispatched id = false) :
    (l.mark id).dispatched.Perm (id :: l.dispatched) := by
  have hnodup := List.nodup_cons.mpr ⟨h.not_mem_dispatched hid, h.dispatched.nodup⟩
  rw [List.perm_ext_iff_of_nodup (h.mark id).dispatched.nodup hnodup]
  intro a
  exact OrderedSet.mem_insert.trans List.mem_cons.symm

/-- A second mark changes nothing. -/
theorem Represents.mark_of_isDispatched (h : l.Represents c) (hid : l.isDispatched id = true) :
    l.mark id = l := by
  have hmem : id ∈ l.dispatched := (OrderedSet.contains_iff_mem h.dispatched).mp hid
  refine (h.mark id).ext h ?_
  refine OrderedSet.ext (h.mark id).dispatched h.dispatched fun a => ?_
  refine OrderedSet.mem_insert.trans ?_
  constructor
  · rintro (rfl | ha)
    · exact hmem
    · exact ha
  · exact Or.inr

/-- A mark that is taken back leaves no trace. -/
theorem Represents.unmark_mark (h : l.Represents c) (hid : l.isDispatched id = false) :
    (l.mark id).unmark id = l := by
  have hmark : OrderedSet.Ascending (OrderedSet.insert id l.dispatched) := (h.mark id).dispatched
  refine ((h.mark id).unmark id).ext h ?_
  refine OrderedSet.ext (OrderedSet.ascending_erase id hmark) h.dispatched fun a => ?_
  refine (OrderedSet.mem_erase hmark).trans ?_
  rw [OrderedSet.mem_insert]
  -- `id` is the one member that marking added, and it was none before
  constructor
  · rintro ⟨hne, ha | ha⟩
    · exact absurd ha hne
    · exact ha
  · intro ha
    refine ⟨?_, Or.inr ha⟩
    rintro rfl
    exact h.not_mem_dispatched hid ha

/-- An envelope that is stored under a new id and removed leaves no trace. -/
theorem Represents.replace_none_insert (h : l.Represents c) (hid : c id = none) (e : Envelope) :
    (l.insert id e).replace id none = l := by
  have hcontents : (Contents.replace (Function.update c id (some e)) id none) = c := by
    rw [Contents.replace, if_pos (by simp), Function.update_idem, ← hid, Function.update_eq_self]
  have hr := (h.insert hid e).replace id none
  rw [hcontents] at hr
  exact hr.ext h (by simp)

/-- Among the candidates of a query the same envelopes match as among all that are stored. -/
theorem Represents.filter_candidates (h : l.Represents c) (q : EventQuery) :
    q.filter ((l.collection q.kind).candidates q) = q.filter l.allRecords := by
  -- a query asks for one kind, so that envelopes of the other never match
  have hother : ∀ kind, kind ≠ q.kind → q.filter (l.records kind) = [] := by
    intro kind hk
    refine List.filter_eq_nil_iff.mpr ?_
    intro r hr hmatch
    obtain ⟨-, hrk⟩ := (h.mem_records kind r).mp hr
    simp only [EventQuery.matchesEnvelope, Bool.and_eq_true, beq_iff_eq] at hmatch
    exact hk (hrk ▸ hmatch.1.1.1.1.1.1)
  have hscan : q.filter l.allRecords = q.filter (l.records q.kind) := by
    rw [allRecords, EventQuery.filter, List.filter_append]
    cases hk : q.kind with
    | event =>
        have := hother .snapshot (by simp [hk])
        simp_all [EventQuery.filter]
    | snapshot =>
        have := hother .event (by simp [hk])
        simp_all [EventQuery.filter]
  rw [hscan]
  unfold Collection.candidates
  cases hq : q.entity? with
  | none => rfl
  | some entity =>
      simp only
      rw [Collection.ofEntity_eq_filter (h.collections q.kind), EventQuery.filter,
        List.filter_filter]
      refine List.filter_congr ?_
      intro r _
      -- a query that fixes an entity matches nothing of another one
      rw [Bool.and_eq_left_iff_imp]
      intro hmatch
      unfold EventQuery.entity? at hq
      split at hq
      · next entityType entityId ht hi =>
          cases hq
          simp only [EventQuery.matchesEnvelope, ht, hi, Option.all_some, Bool.and_eq_true,
            beq_iff_eq] at hmatch
          rw [decide_eq_true_iff, Envelope.entity]
          rw [hmatch.1.1.1.1.1.2, hmatch.1.1.1.1.2]
      · cases hq

end Ledger

end Chronicle
