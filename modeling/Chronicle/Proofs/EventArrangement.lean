import Chronicle.Proofs.LedgerHistory

set_option autoImplicit false

/-!
# How the answer to a query is arranged

What a query asks of an envelope, and where an envelope stands among others, said without the
functions that answer queries. Main statement: of candidates with different ids there is one
arrangement of those that the query admits, and whatever order the candidates come in, its first
part is selected, and the snapshot that is answered is the one captured last
(`EventQuery.select_and_latest_of_perm`).
-/

namespace Chronicle

/-! ## What a query admits -/

/-- The instant keeps every bound that the range has. -/
structure TimeRange.Admits (range : TimeRange) (t : Timestamp) : Prop where
  after : ∀ bound ∈ range.after, bound < t
  since : ∀ bound ∈ range.since, bound ≤ t
  before : ∀ bound ∈ range.before, t < bound
  upTo : ∀ bound ∈ range.upTo, t ≤ bound

/-- The envelope keeps every condition that the query has. -/
structure EventQuery.Admits (q : EventQuery) (e : Envelope) : Prop where
  kind : e.kind = q.kind
  entityType : ∀ n ∈ q.entityType, e.entityType = n
  entityId : ∀ i ∈ q.entityId, e.entityId = i
  entityIds : ∀ ids ∈ q.entityIds, e.entityId ∈ ids
  typeName : ∀ n ∈ q.typeName, e.typeName = n
  createdAt : q.createdAt.Admits e.createdAt
  deleted : ∀ wanted ∈ q.deleted, (e.deletedAt.isSome ↔ wanted = true)

theorem TimeRange.contains_iff {range : TimeRange} {t : Timestamp} :
    range.contains t = true ↔ range.Admits t := by
  simp only [contains, Bool.and_eq_true, Option.all_eq_true, decide_eq_true_eq]
  constructor
  · rintro ⟨⟨⟨hafter, hsince⟩, hbefore⟩, hupTo⟩
    exact ⟨hafter, hsince, hbefore, hupTo⟩
  · rintro ⟨hafter, hsince, hbefore, hupTo⟩
    exact ⟨⟨⟨hafter, hsince⟩, hbefore⟩, hupTo⟩

namespace EventQuery

theorem matchesEnvelope_iff {q : EventQuery} {e : Envelope} :
    q.matchesEnvelope e = true ↔ q.Admits e := by
  simp only [matchesEnvelope, Bool.and_eq_true, Option.all_eq_true, beq_iff_eq,
    TimeRange.contains_iff, List.contains_iff_mem]
  constructor
  · rintro ⟨⟨⟨⟨⟨⟨hkind, htype⟩, hid⟩, hids⟩, hname⟩, hcreated⟩, hdeleted⟩
    refine ⟨hkind, fun n hn => (htype n hn).symm, fun i hi => (hid i hi).symm, hids,
      fun n hn => (hname n hn).symm, hcreated, fun wanted hwanted => ?_⟩
    rw [← hdeleted wanted hwanted]
    rfl
  · rintro ⟨hkind, htype, hid, hids, hname, hcreated, hdeleted⟩
    refine ⟨⟨⟨⟨⟨⟨hkind, fun n hn => (htype n hn).symm⟩, fun i hi => (hid i hi).symm⟩, hids⟩,
      fun n hn => (hname n hn).symm⟩, hcreated⟩, fun wanted hwanted => ?_⟩
    exact Bool.eq_iff_iff.mpr (hdeleted wanted hwanted)

theorem mem_filter_iff {q : EventQuery} {candidates : List StoredEnvelope} {s : StoredEnvelope} :
    s ∈ q.filter candidates ↔ s ∈ candidates ∧ q.Admits s.envelope := by
  rw [filter, List.mem_filter, matchesEnvelope_iff]

end EventQuery

/-! ## Where an envelope stands -/

namespace StoredEnvelope

/-- Created earlier, or later if the newest come first; at the same time, the smaller id. -/
def Before : TimeOrder → StoredEnvelope → StoredEnvelope → Prop
  | .oldestFirst, a, b =>
      a.envelope.createdAt < b.envelope.createdAt ∨
        a.envelope.createdAt = b.envelope.createdAt ∧ a.id.number < b.id.number
  | .newestFirst, a, b =>
      b.envelope.createdAt < a.envelope.createdAt ∨
        a.envelope.createdAt = b.envelope.createdAt ∧ a.id.number < b.id.number

/-- Captured earlier, or not at all where the other one is; at the same time, the smaller id. -/
def CapturedBefore (a b : StoredEnvelope) : Prop :=
  a.envelope.capturedAt < b.envelope.capturedAt ∨
    a.envelope.capturedAt = b.envelope.capturedAt ∧ a.id.number < b.id.number

theorem compare_eq_lt_iff {order : TimeOrder} {a b : StoredEnvelope} :
    StoredEnvelope.compare order a b = .lt ↔ Before order a b := by
  have hid : Ord.compare a.id b.id = .lt ↔ a.id.number < b.id.number := Nat.compare_eq_lt
  have hsame : Ord.compare a.envelope.createdAt b.envelope.createdAt = .eq ↔
      a.envelope.createdAt = b.envelope.createdAt := Std.LawfulEqOrd.compare_eq_iff_eq
  cases order with
  | oldestFirst =>
      rw [StoredEnvelope.compare, Ordering.then_eq_lt, hid, hsame]
      exact or_congr_left Int.compare_eq_lt
  | newestFirst =>
      rw [StoredEnvelope.compare, Ordering.then_eq_lt, hid, Ordering.swap_eq_eq, hsame,
        Ordering.swap_eq_lt]
      exact or_congr_left Int.compare_eq_gt

theorem compareSnapshots_eq_lt_iff {a b : StoredEnvelope} :
    compareSnapshots a b = .lt ↔ CapturedBefore a b := by
  have hid : Ord.compare a.id b.id = .lt ↔ a.id.number < b.id.number := Nat.compare_eq_lt
  have hsame : Ord.compare a.envelope.capturedAt b.envelope.capturedAt = .eq ↔
      a.envelope.capturedAt = b.envelope.capturedAt := Std.LawfulEqOrd.compare_eq_iff_eq
  have hearlier : Ord.compare a.envelope.capturedAt b.envelope.capturedAt = .lt ↔
      a.envelope.capturedAt < b.envelope.capturedAt := by
    cases a.envelope.capturedAt with
    | none => cases b.envelope.capturedAt <;> simp [Ord.compare]
    | some t =>
        cases b.envelope.capturedAt with
        | none => simp
        | some u => exact Int.compare_eq_lt
  rw [compareSnapshots, compareCapture_eq, Ordering.then_eq_lt, hid, hsame, hearlier]
  rfl

end StoredEnvelope

/-! ## Arrangements -/

namespace EventQuery

open StoredEnvelope

variable {q : EventQuery} {order : TimeOrder} {candidates candidates' : List StoredEnvelope}

/-- The candidates that the query admits, each once and in order. -/
structure Arranges (q : EventQuery) (order : TimeOrder)
    (candidates arranged : List StoredEnvelope) : Prop where
  ordered : arranged.Pairwise (Before order)
  once : (arranged.map StoredEnvelope.id).Nodup
  mem_iff : ∀ s, s ∈ arranged ↔ s ∈ candidates ∧ q.Admits s.envelope

/-- The snapshot among the candidates that, of those the query admits, was captured last. -/
structure IsLatest (q : EventQuery) (candidates : List StoredEnvelope) (latest : StoredEnvelope) :
    Prop where
  mem : latest ∈ candidates
  admitted : ({ q with kind := .snapshot } : EventQuery).Admits latest.envelope
  last : ∀ s ∈ candidates, ({ q with kind := .snapshot } : EventQuery).Admits s.envelope →
    s = latest ∨ s.CapturedBefore latest

/-- There are no two arrangements of the same candidates. -/
theorem Arranges.unique {arranged other : List StoredEnvelope}
    (h : q.Arranges order candidates arranged) (h' : q.Arranges order candidates other) :
    other = arranged := by
  have hperm : other.Perm arranged :=
    (List.perm_ext_iff_of_nodup h'.once.of_map h.once.of_map).mpr fun s => by
      rw [h'.mem_iff, h.mem_iff]
  refine hperm.eq_of_pairwise ?_ h'.ordered h.ordered
  intro a b _ _ hab hba
  exact absurd (compare_eq_lt_iff.mpr hba)
    (Std.OrientedCmp.not_lt_of_lt (compare_eq_lt_iff.mpr hab))

/-- Sorting arranges what the query admits. -/
theorem arranges_select (q : EventQuery) (order : TimeOrder)
    (hids : (candidates.map StoredEnvelope.id).Nodup) :
    q.Arranges order candidates (q.select order none candidates) := by
  have hperm : (q.select order none candidates).Perm (q.filter candidates) := stableSort_perm _ _
  refine ⟨?_, ?_, fun s => ?_⟩
  · exact (strict_stableSort (q.differ_filter order hids)).imp compare_eq_lt_iff.mp
  · exact (hperm.map _).nodup_iff.mpr (q.nodup_filter hids)
  · rw [hperm.mem_iff, mem_filter_iff]

/-- No two snapshots were captured last. -/
theorem IsLatest.unique {latest other : StoredEnvelope} (h : q.IsLatest candidates latest)
    (h' : q.IsLatest candidates other) : other = latest := by
  rcases h.last other h'.mem h'.admitted with heq | hbefore
  · exact heq
  rcases h'.last latest h.mem h.admitted with heq | hbefore'
  · exact heq.symm
  exact absurd (compareSnapshots_eq_lt_iff.mpr hbefore')
    (Std.OrientedCmp.not_lt_of_lt (compareSnapshots_eq_lt_iff.mpr hbefore))

/-- The snapshot that is answered was captured last. -/
theorem isLatest_of_latestSnapshot? (hids : (candidates.map StoredEnvelope.id).Nodup)
    {latest : StoredEnvelope} (h : q.latestSnapshot? candidates = some latest) :
    q.IsLatest candidates latest := by
  obtain ⟨hlatest, hgreatest⟩ := latest?_spec h
  obtain ⟨hmem, hadmitted⟩ := mem_filter_iff.mp hlatest
  refine ⟨hmem, hadmitted, fun s hs hsadmitted => ?_⟩
  have hle := hgreatest s (mem_filter_iff.mpr ⟨hs, hsadmitted⟩)
  rcases Ordering.isLE_iff_eq_lt_or_eq_eq.mp hle with hlt | heq
  · exact Or.inr (compareSnapshots_eq_lt_iff.mp hlt)
  · exact Or.inl (List.inj_on_of_nodup_map hids hs hmem (id_eq_of_compareSnapshots heq))

/-- None is answered exactly if there is no snapshot that the query admits. -/
theorem latestSnapshot?_eq_none_iff :
    q.latestSnapshot? candidates = none ↔
      ∀ s ∈ candidates, ¬({ q with kind := .snapshot } : EventQuery).Admits s.envelope := by
  rw [latestSnapshot?, latest?_eq_none_iff, List.eq_nil_iff_forall_not_mem]
  simp only [mem_filter_iff, not_and]

/-- A snapshot is answered exactly if it was captured last. -/
theorem latestSnapshot?_eq_some_iff (hids : (candidates.map StoredEnvelope.id).Nodup)
    {latest : StoredEnvelope} :
    q.latestSnapshot? candidates = some latest ↔ q.IsLatest candidates latest := by
  refine ⟨isLatest_of_latestSnapshot? hids, fun h => ?_⟩
  cases hanswer : q.latestSnapshot? candidates with
  | none => exact absurd h.admitted (latestSnapshot?_eq_none_iff.mp hanswer latest h.mem)
  | some other => rw [h.unique (isLatest_of_latestSnapshot? hids hanswer)]

/--
Of candidates with different ids, whatever query is asked: in either order there is one
arrangement of those that it admits, and whatever order the candidates come in, all of it is
selected, or as many of the first as there may be; the latest snapshot is the one that was
captured last of those that the query admits when it is asked of snapshots, and there is none
exactly if it admits none.
-/
theorem select_and_latest_of_perm (q : EventQuery)
    (hids : (candidates.map StoredEnvelope.id).Nodup) :
    (∀ order, ∃ arranged, q.Arranges order candidates arranged ∧
      (∀ other, q.Arranges order candidates other → other = arranged) ∧
      ∀ candidates', candidates'.Perm candidates →
        q.select order none candidates' = arranged ∧
          ∀ limit, q.select order (some limit) candidates' = arranged.take limit) ∧
    ∀ candidates', candidates'.Perm candidates →
      (∀ latest, q.latestSnapshot? candidates' = some latest ↔ q.IsLatest candidates latest) ∧
      (q.latestSnapshot? candidates' = none ↔
        ∀ s ∈ candidates, ¬({ q with kind := .snapshot } : EventQuery).Admits s.envelope) := by
  refine ⟨fun order => ?_, fun candidates' hperm => ?_⟩
  · have harranged := q.arranges_select order hids
    refine ⟨_, harranged, fun other => harranged.unique, fun candidates' hperm => ?_⟩
    have hsame := fun limit => (q.select_perm order limit (hperm.symm.filter _) hids).symm
    exact ⟨hsame none, fun limit => hsame (some limit)⟩
  · rw [← q.latestSnapshot?_perm (hperm.symm.filter _) hids]
    exact ⟨fun latest => latestSnapshot?_eq_some_iff hids, latestSnapshot?_eq_none_iff⟩

open MemoryEvents (walletSnapshot cartEvent)

/-- Snapshots of one time, one of which says nothing about what it captures, among events. -/
def mixedRecords : List StoredEnvelope :=
  [⟨.ofNat 4, { walletSnapshot with capturedAt := none }⟩, ⟨.ofNat 3, walletSnapshot⟩,
    ⟨.ofNat 2, cartEvent⟩, ⟨.ofNat 1, walletSnapshot⟩]

/-- Whichever way round they come: the snapshots stand by their ids, and of the two that were
captured at the latest time the one with the greater id is the latest, also for a query that
names events. -/
theorem select_and_latest_of_mixedRecords :
    (∃ arranged, snapshots.Arranges .newestFirst mixedRecords arranged ∧
        arranged.take 2 = [⟨.ofNat 1, walletSnapshot⟩, ⟨.ofNat 3, walletSnapshot⟩]) ∧
      events.IsLatest mixedRecords ⟨.ofNat 3, walletSnapshot⟩ := by
  have hids : (mixedRecords.map StoredEnvelope.id).Nodup := by decide +kernel
  have hreverse : mixedRecords.reverse.Perm mixedRecords := List.reverse_perm _
  constructor
  · obtain ⟨arranged, harranged, -, hselect⟩ := (select_and_latest_of_perm snapshots hids).1
      .newestFirst
    exact ⟨arranged, harranged, ((hselect _ hreverse).2 2).symm⟩
  · have hlatest := ((select_and_latest_of_perm events hids).2 _ hreverse).1
    exact (hlatest _).mp rfl

end EventQuery

end Chronicle
