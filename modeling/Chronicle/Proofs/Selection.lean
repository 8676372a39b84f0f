import Chronicle.Event.Query
import Chronicle.Proofs.StableSort
import Mathlib.Data.List.Induction
import Mathlib.Data.List.Nodup

set_option autoImplicit false

/-!
# What queries select

Results are arranged by time and then by id, so two envelopes with different ids always differ in
rank. Main statements: what a query selects (`EventQuery.select_perm`) and the latest snapshot
that it matches (`EventQuery.latestSnapshot?_perm`) depend on the candidates alone, not on the
order in which they come.
-/

namespace Chronicle

namespace StoredEnvelope

/-- Either order of results is a total preorder. -/
instance (order : TimeOrder) : Std.TransCmp (StoredEnvelope.compare order) := by
  cases order with
  | oldestFirst =>
      exact inferInstanceAs (Std.TransCmp
        (compareLex (compareOn fun s : StoredEnvelope => s.envelope.createdAt)
          (compareOn StoredEnvelope.id)))
  | newestFirst =>
      have hlex : StoredEnvelope.compare .newestFirst =
          compareLex (fun a b => compareOn (fun s : StoredEnvelope => s.envelope.createdAt) b a)
            (compareOn StoredEnvelope.id) := by
        funext a b
        have hswap : Ord.compare b.envelope.createdAt a.envelope.createdAt =
            (Ord.compare a.envelope.createdAt b.envelope.createdAt).swap :=
          Std.OrientedCmp.eq_swap
        simp only [StoredEnvelope.compare, compareLex, compareOn, hswap]
      have hopposite : Std.TransCmp fun a b : StoredEnvelope =>
          compareOn (fun s : StoredEnvelope => s.envelope.createdAt) b a :=
        Std.TransCmp.opposite
      rw [hlex]
      infer_instance

/-- Results of one rank have one id. -/
theorem id_eq_of_compare {order : TimeOrder} {a b : StoredEnvelope}
    (h : StoredEnvelope.compare order a b = .eq) : a.id = b.id :=
  Std.LawfulEqOrd.eq_of_compare (Ordering.then_eq_eq.mp h).2

/-- The order of capture times is that of options. -/
theorem compareCapture_eq (t u : Option Timestamp) : compareCapture t u = Ord.compare t u := by
  cases t <;> cases u <;> rfl

instance : Std.TransCmp compareSnapshots := by
  have hlex : compareSnapshots =
      compareLex (compareOn fun s : StoredEnvelope => s.envelope.capturedAt)
        (compareOn StoredEnvelope.id) := by
    funext a b
    simp only [compareSnapshots, compareCapture_eq, compareLex, compareOn]
  rw [hlex]
  infer_instance

/-- Snapshots of one rank have one id. -/
theorem id_eq_of_compareSnapshots {a b : StoredEnvelope} (h : compareSnapshots a b = .eq) :
    a.id = b.id :=
  Std.LawfulEqOrd.eq_of_compare (Ordering.then_eq_eq.mp h).2

/-- One more snapshot is the latest unless an earlier one is greater. -/
theorem latest?_concat (snapshots : List StoredEnvelope) (s : StoredEnvelope) :
    latest? (snapshots ++ [s]) =
      match latest? snapshots with
      | none => some s
      | some b => if compareSnapshots b s == .gt then some b else some s := by
  rw [latest?, List.foldl_append]
  rfl

theorem latest?_eq_none_iff {snapshots : List StoredEnvelope} :
    latest? snapshots = none ↔ snapshots = [] := by
  constructor
  · intro h
    cases snapshots using List.reverseRecOn with
    | nil => rfl
    | append_singleton snapshots s =>
        rw [latest?_concat] at h
        split at h
        · cases h
        · split at h <;> cases h
  · rintro rfl
    rfl

/-- The latest snapshot is one of the list, and none is greater. -/
theorem latest?_spec {snapshots : List StoredEnvelope} {latest : StoredEnvelope}
    (h : latest? snapshots = some latest) :
    latest ∈ snapshots ∧ ∀ s ∈ snapshots, (compareSnapshots s latest).isLE := by
  induction snapshots using List.reverseRecOn generalizing latest with
  | nil => cases h
  | append_singleton snapshots s ih =>
      rw [latest?_concat] at h
      have hself : (compareSnapshots s s).isLE := by
        have heq : compareSnapshots s s = .eq := Std.ReflCmp.compare_self
        rw [heq]
        rfl
      cases hbefore : latest? snapshots with
      | none =>
          rw [hbefore] at h
          cases h
          obtain rfl := latest?_eq_none_iff.mp hbefore
          exact ⟨List.mem_singleton_self s, by simpa using hself⟩
      | some b =>
          obtain ⟨hb, hgreatest⟩ := ih hbefore
          simp only [hbefore] at h
          have hswap : compareSnapshots s b = (compareSnapshots b s).swap :=
            Std.OrientedCmp.eq_swap
          simp only [List.mem_append, List.mem_singleton]
          split at h
          · next hgt =>
              -- the greatest of those before stays
              cases h
              rw [beq_iff_eq] at hgt
              refine ⟨Or.inl hb, ?_⟩
              rintro t (ht | rfl)
              · exact hgreatest t ht
              · rw [hswap, hgt]
                rfl
          · next hle =>
              cases h
              have hbs : (compareSnapshots b s).isLE := by
                cases hcmp : compareSnapshots b s with
                | lt => rfl
                | eq => rfl
                | gt => exact absurd (by rw [hcmp]; rfl) hle
              refine ⟨Or.inr rfl, ?_⟩
              rintro t (ht | rfl)
              · exact Std.TransCmp.isLE_trans (hgreatest t ht) hbs
              · exact hself

/-- Of snapshots with different ids the same one is the latest, whatever order they come in. -/
theorem latest?_perm {snapshots snapshots' : List StoredEnvelope}
    (hperm : snapshots.Perm snapshots') (hids : (snapshots.map StoredEnvelope.id).Nodup) :
    latest? snapshots = latest? snapshots' := by
  cases h : latest? snapshots with
  | none =>
      obtain rfl := latest?_eq_none_iff.mp h
      rw [List.nil_perm.mp hperm]
      rfl
  | some s =>
      obtain ⟨hs, hgreatest⟩ := latest?_spec h
      cases h' : latest? snapshots' with
      | none =>
          obtain rfl := latest?_eq_none_iff.mp h'
          exact absurd (hperm.mem_iff.mp hs) List.not_mem_nil
      | some s' =>
          obtain ⟨hs', hgreatest'⟩ := latest?_spec h'
          have heq : compareSnapshots s s' = .eq :=
            Std.OrientedCmp.isLE_antisymm (hgreatest' s (hperm.mem_iff.mp hs))
              (hgreatest s' (hperm.mem_iff.mpr hs'))
          rw [List.inj_on_of_nodup_map hids hs (hperm.mem_iff.mpr hs')
            (id_eq_of_compareSnapshots heq)]

end StoredEnvelope

namespace EventQuery

variable {candidates candidates' : List StoredEnvelope}

/-- The candidates that match have different ids if all candidates have. -/
theorem nodup_filter (q : EventQuery) (hids : (candidates.map StoredEnvelope.id).Nodup) :
    ((q.filter candidates).map StoredEnvelope.id).Nodup :=
  hids.sublist (List.filter_sublist.map _)

/-- Candidates with different ids differ in rank. -/
theorem differ_filter (q : EventQuery) (order : TimeOrder)
    (hids : (candidates.map StoredEnvelope.id).Nodup) :
    (q.filter candidates).Pairwise fun a b => StoredEnvelope.compare order a b ≠ .eq := by
  refine (List.pairwise_map.mp (q.nodup_filter hids)).imp ?_
  intro a b hne heq
  exact hne (StoredEnvelope.id_eq_of_compare heq)

/-- A query that matches the same candidates, whatever order they come in, selects the same. -/
theorem select_perm (q : EventQuery) (order : TimeOrder) (limit : Option Nat)
    (hperm : (q.filter candidates).Perm (q.filter candidates'))
    (hids : (candidates.map StoredEnvelope.id).Nodup) :
    q.select order limit candidates = q.select order limit candidates' := by
  unfold select
  rw [stableSort_congr hperm (q.differ_filter order hids)]

/-- The latest of the matching snapshots does not depend on the order of the candidates. -/
theorem latestSnapshot?_perm (q : EventQuery)
    (hperm : (({ q with kind := .snapshot } : EventQuery).filter candidates).Perm
      (({ q with kind := .snapshot } : EventQuery).filter candidates'))
    (hids : (candidates.map StoredEnvelope.id).Nodup) :
    q.latestSnapshot? candidates = q.latestSnapshot? candidates' :=
  StoredEnvelope.latest?_perm hperm (nodup_filter _ hids)

end EventQuery

end Chronicle
