import Chronicle.Proofs.Projections
import Mathlib.Data.List.Forall2

set_option autoImplicit false

/-!
# Where the parts of a projection come from

A projection is merged from fragments of one document, and the merge of fragments has nothing that
none of them has (`Json.view_of_merge`). Main statement: a scalar of a projection stands at the
same place in the document, where a path leads to it or to something around it, an array keeps an
element for each element, and what the document does not have is left out
(`Projection.parts_of_apply`).
-/

namespace Chronicle

namespace Json

variable {a b r u v w x y : Json} {s : Step} {loc : Location} {g : Head}

/-- Whether the value is neither an array nor an object. -/
def isScalar : Json → Bool
  | array _ => false
  | object _ => false
  | _ => true

theorem head_ne_object_of_isScalar (h : x.isScalar = true) : x.head ≠ .object := by
  cases x <;> simp_all [isScalar, head]

/-- A scalar is nothing but its head. -/
theorem eq_of_head_eq (hx : x.isScalar = true) (h : y.head = x.head) : y = x := by
  cases x <;> cases y <;> simp_all [isScalar, head]

theorem view_of_at? (h : v.at? loc = some w) : v.view loc = some w.head := by
  rw [view, h, Option.map_some]

/-- An empty object has nothing in it. -/
theorem eq_object_of_view_emptyObject (h : emptyObject.view loc = some g) : g = .object := by
  cases loc with
  | nil => exact (Option.some.inj h).symm
  | cons s loc =>
      obtain ⟨w, hw, -⟩ := enter_of_view h
      rw [enter_emptyObject] at hw
      cases hw

/-! ## Merging fragments of one value -/

/-- Of fragments that are not alike the second replaces the first, as two arrays are of the length
that the value has. -/
theorem merge_of_head_ne (ha : Within a v) (hb : Within b v) (hhead : a.head ≠ b.head) :
    merge a b = b := by
  cases a
  case array as =>
    cases b
    case array bs => exact absurd (ha.head_eq hb rfl) hhead
    all_goals rfl
  case object as =>
    cases b
    case object bs => exact absurd rfl hhead
    all_goals rfl
  all_goals cases b <;> rfl

/-- The merge of two fragments of one value has nothing that neither of them has. -/
theorem view_of_merge (hdistinct : b.hasDistinctKeys = true) (ha : Within a v) (hb : Within b v)
    (h : (merge a b).view loc = some g) : a.view loc = some g ∨ b.view loc = some g := by
  induction loc generalizing a b v with
  | nil =>
      by_cases hhead : a.head = b.head
      · rw [view_nil, head_merge hhead] at h
        exact Or.inr h
      · rw [merge_of_head_ne ha hb hhead] at h
        exact Or.inr h
  | cons s loc ih =>
      by_cases hhead : a.head = b.head
      · obtain ⟨w, hw, hview⟩ := enter_of_view h
        rw [enter_merge hdistinct hhead] at hw
        cases hx : a.enter s with
        | none =>
            rw [hx, Option.merge_none_left] at hw
            exact Or.inr ((view_of_enter hw loc).trans hview)
        | some x =>
            cases hy : b.enter s with
            | none =>
                rw [hx, hy, Option.merge_none_right] at hw
                rw [← Option.some.inj hw] at hview
                exact Or.inl ((view_of_enter hx loc).trans hview)
            | some y =>
                -- the step leads into both, to fragments of what it leads to in the value
                rw [hx, hy] at hw
                obtain rfl := Option.some.inj hw
                obtain ⟨u, hu, hxu⟩ := ha.enter hx
                obtain ⟨u', hu', hyu⟩ := hb.enter hy
                obtain rfl := Option.some.inj (hu.symm.trans hu')
                rw [view_of_enter hx, view_of_enter hy]
                exact ih (hasDistinctKeys_of_enter hdistinct hy) hxu hyu hview
      · rw [merge_of_head_ne ha hb hhead] at h
        exact Or.inr h

namespace Within

/-- The merge of two fragments is a fragment. -/
theorem merge (hdistinct : b.hasDistinctKeys = true) (ha : Within a v) (hb : Within b v) :
    Within (merge a b) v := by
  intro loc g h
  rcases view_of_merge hdistinct ha hb h with hg | hg
  · exact ha loc g hg
  · exact hb loc g hg

/-- What stands somewhere in a fragment is a fragment of what stands there in the value. -/
theorem at? (h : Within r v) (hw : r.at? loc = some w) :
    ∃ u, v.at? loc = some u ∧ Within w u := by
  induction loc generalizing r v with
  | nil =>
      obtain rfl := Option.some.inj hw
      exact ⟨v, rfl, h⟩
  | cons s loc ih =>
      rw [Json.at?] at hw
      cases hx : r.enter s with
      | none =>
          rw [hx] at hw
          cases hw
      | some x =>
          rw [hx] at hw
          obtain ⟨y, hy, hxy⟩ := h.enter hx
          obtain ⟨u, hu, hwu⟩ := ih hxy hw
          refine ⟨u, ?_, hwu⟩
          rw [Json.at?, hy]
          exact hu

/-- A fragment that is a scalar is the value. -/
theorem eq_of_isScalar (h : Within x v) (hx : x.isScalar = true) : v = x := by
  obtain ⟨g, hg, hhead⟩ := h [] _ rfl
  obtain rfl := Option.some.inj hg
  exact eq_of_head_eq hx (hhead.resolve_right (head_ne_object_of_isScalar hx)).symm

/-- A fragment that is an array has a fragment of each element. -/
theorem forall₂_of_array {items : List Json} (h : Within (.array items) v) :
    ∃ all, v = .array all ∧ List.Forall₂ Within items all := by
  obtain ⟨g, hg, rfl | hobject⟩ := h [] _ rfl
  · obtain ⟨all, rfl, hlength⟩ := eq_array_of_head (Option.some.inj hg)
    refine ⟨all, rfl, List.forall₂_iff_get.mpr ⟨hlength.symm, fun i hi hi' => ?_⟩⟩
    obtain ⟨u, hu, hwithin⟩ := h.enter (s := .index i) (List.getElem?_eq_getElem hi)
    obtain rfl := Option.some.inj ((List.getElem?_eq_getElem hi').symm.trans hu)
    exact hwithin
  · cases hobject

end Within

/-- What is merged of fragments of one value is a fragment of it, and has nothing that none of them
has. -/
theorem view_of_foldl_merge {ws : List Json} (hdistinct : ∀ w ∈ ws, w.hasDistinctKeys = true)
    (hws : ∀ w ∈ ws, Within w v) (hr : Within r v) :
    Within (ws.foldl merge r) v ∧ ∀ loc g, (ws.foldl merge r).view loc = some g →
      r.view loc = some g ∨ ∃ w ∈ ws, w.view loc = some g := by
  induction ws generalizing r with
  | nil => exact ⟨hr, fun loc g => Or.inl⟩
  | cons w ws ih =>
      obtain ⟨hw, hdistinct⟩ := List.forall_mem_cons.mp hdistinct
      obtain ⟨hwv, hws⟩ := List.forall_mem_cons.mp hws
      obtain ⟨hwithin, hview⟩ := ih hdistinct hws (hr.merge hw hwv)
      refine ⟨hwithin, fun loc g h => ?_⟩
      rcases hview loc g h with hg | ⟨u, hu, hg⟩
      · rcases view_of_merge hw hr hwv hg with hg | hg
        · exact Or.inl hg
        · exact Or.inr ⟨w, List.mem_cons_self, hg⟩
      · exact Or.inr ⟨u, List.mem_cons_of_mem w hu, hg⟩

end Json

/-! ## Where a path leads -/

/-- The steps that a segment of a path takes: a key that to the field, a mark that to any item. -/
inductive Segment.Takes : Segment → Step → Prop
  | key (name : String) : Takes (.key name) (.key name)
  | each (i : Nat) : Takes .each (.index i)

namespace FieldPath

open Json (Within)

variable {p : FieldPath} {v w x : Json} {loc : Location}

/-- Whether the path leads to a location, or to something around what stands there. -/
def Reaches (p : FieldPath) (loc : Location) : Prop :=
  ∃ passed, List.Forall₂ Segment.Takes p passed ∧ passed <+: loc

theorem reaches_nil (loc : Location) : Reaches [] loc := ⟨[], .nil, List.nil_prefix⟩

theorem Reaches.cons {segment : Segment} {s : Step} (hs : segment.Takes s) (h : Reaches p loc) :
    Reaches (segment :: p) (s :: loc) := by
  obtain ⟨passed, htakes, hprefix⟩ := h
  exact ⟨s :: passed, .cons hs htakes, List.cons_prefix_cons.mpr ⟨rfl, hprefix⟩⟩

/-- A path leads to the scalars in what it selects, or to something around them; what stands for
items of which it selects nothing has no scalar in it. -/
theorem reaches_of_select (h : select p v = some w) (hview : w.view loc = some x.head)
    (hx : x.isScalar = true) : p.Reaches loc := by
  induction p generalizing v w loc with
  | nil => exact reaches_nil loc
  | cons segment rest ih =>
      cases segment with
      | key name =>
          obtain ⟨u, w', hu, hw', rfl⟩ := select_key_eq_some_iff.mp h
          cases loc with
          | nil => exact absurd (Option.some.inj hview).symm (Json.head_ne_object_of_isScalar hx)
          | cons s loc =>
              obtain ⟨y, hy, hbelow⟩ := Json.enter_of_view hview
              obtain ⟨rfl, rfl⟩ := Json.enter_singleton hy
              exact (ih hw' hbelow).cons (.key name)
      | each =>
          obtain ⟨items, rfl, rfl⟩ := select_each_eq_some_iff.mp h
          cases loc with
          | nil =>
              have hhead : x = .array (selectEach rest items) :=
                (Json.eq_of_head_eq hx (Option.some.inj hview)).symm
              rw [hhead] at hx
              cases hx
          | cons s loc =>
              obtain ⟨y, hy, hbelow⟩ := Json.enter_of_view hview
              obtain ⟨u, -, hu, rfl⟩ := enter_selectEach hy
              cases s with
              | key name => cases hu
              | index i =>
                  cases hw : select rest u with
                  | none =>
                      rw [hw] at hbelow
                      exact absurd (Json.eq_object_of_view_emptyObject hbelow)
                        (Json.head_ne_object_of_isScalar hx)
                  | some w =>
                      rw [hw] at hbelow
                      exact (ih hw hbelow).cons (.each i)

end FieldPath

namespace Projection

open Json (Within)

variable {doc : Json}

/-- A projection is a fragment of the document, and all in it is selected by one of the paths. -/
theorem view_of_apply (ps : Projection) (hdoc : doc.hasDistinctKeys = true) :
    Within (ps.apply doc) doc ∧ ∀ loc g, (ps.apply doc).view loc = some g →
      Json.emptyObject.view loc = some g ∨
        ∃ p ∈ ps, ∃ w, p.select doc = some w ∧ w.view loc = some g := by
  have hselected : ∀ w ∈ ps.selections doc, w.hasDistinctKeys = true ∧ Within w doc := by
    intro w hw
    obtain ⟨p, -, hp⟩ := mem_selections.mp hw
    exact ⟨FieldPath.hasDistinctKeys_of_select hdoc hp, FieldPath.within_of_select hp⟩
  obtain ⟨hwithin, hview⟩ := Json.view_of_foldl_merge (fun w hw => (hselected w hw).1)
    (fun w hw => (hselected w hw).2) (Within.emptyObject doc)
  rw [apply_eq_foldl]
  refine ⟨hwithin, fun loc g h => ?_⟩
  rcases hview loc g h with hg | ⟨w, hw, hg⟩
  · exact Or.inl hg
  · obtain ⟨p, hmem, hp⟩ := mem_selections.mp hw
    exact Or.inr ⟨p, hmem, w, hp, hg⟩

/--
For all paths, on every document: what the document does not have, the projection does not have
either; a scalar of the projection, `null` included, is the one that stands at the same place in the
document, and one of the paths leads there, or to something around it; and where the projection has
an array, the document has an array of as many elements, each in its place.
-/
theorem parts_of_apply (ps : Projection) (doc : Json) (hdoc : doc.hasDistinctKeys = true) :
    (∀ loc, doc.at? loc = none → (ps.apply doc).at? loc = none) ∧
    (∀ loc x, (ps.apply doc).at? loc = some x → x.isScalar = true →
      doc.at? loc = some x ∧ ∃ p ∈ ps, p.Reaches loc) ∧
    ∀ loc items, (ps.apply doc).at? loc = some (.array items) →
      ∃ all, doc.at? loc = some (.array all) ∧ List.Forall₂ Within items all := by
  obtain ⟨hwithin, hview⟩ := view_of_apply ps hdoc
  refine ⟨fun loc hloc => ?_, fun loc x hx hscalar => ⟨?_, ?_⟩, fun loc items hitems => ?_⟩
  · refine Option.eq_none_iff_forall_ne_some.mpr fun w hw => ?_
    obtain ⟨u, hu, -⟩ := hwithin.at? hw
    rw [hloc] at hu
    cases hu
  · obtain ⟨u, hu, hxu⟩ := hwithin.at? hx
    rw [hu, hxu.eq_of_isScalar hscalar]
  · rcases hview loc _ (Json.view_of_at? hx) with hempty | ⟨p, hp, w, hw, hwloc⟩
    · exact absurd (Json.eq_object_of_view_emptyObject hempty)
        (Json.head_ne_object_of_isScalar hscalar)
    · exact ⟨p, hp, FieldPath.reaches_of_select hw hwloc hscalar⟩
  · obtain ⟨u, hu, hitemsu⟩ := hwithin.at? hitems
    obtain ⟨all, rfl, hall⟩ := hitemsu.forall₂_of_array
    exact ⟨all, hu, hall⟩

/-- A grid of cells in rows, one of which is no cell, and a note that says nothing. -/
def grid : Json :=
  .object [("grid", .array [
    .array [.object [("v", .number (.int 1)), ("w", .null)], .number (.int 7)],
    .array []]), ("note", .null), ("title", .string "t")]

/-- The values of the cells, a note, and a field that is not there. -/
def gridPaths : Projection :=
  [[.key "grid", .each, .each, .key "v"], [.key "note"], [.key "missing"]]

theorem apply_gridPaths : gridPaths.apply grid =
    .object [("grid", .array [.array [.object [("v", .number (.int 1))], .emptyObject],
      .array []]), ("note", .null)] := by
  simp [gridPaths, grid, apply, FieldPath.select, FieldPath.selectEach, Fields.get?, Json.merge,
    Json.mergeFields, Fields.set, Json.emptyObject]

/-- Each row keeps its cells, and the note is that of the document. -/
theorem parts_of_grid :
    grid.hasDistinctKeys = true ∧
      (gridPaths.apply grid).at? [.key "missing"] = none ∧
      (grid.at? [.key "note"] = some .null ∧ ∃ p ∈ gridPaths, p.Reaches [.key "note"]) ∧
      (∃ p ∈ gridPaths, p.Reaches [.key "grid", .index 0, .index 0, .key "v"]) ∧
      ∃ cells, grid.at? [.key "grid", .index 0] = some (.array cells) ∧
        List.Forall₂ Within [.object [("v", .number (.int 1))], .emptyObject] cells := by
  have hdoc : grid.hasDistinctKeys = true := by decide +kernel
  obtain ⟨hmissing, hscalar, harray⟩ := parts_of_apply gridPaths grid hdoc
  rw [apply_gridPaths] at hmissing hscalar harray ⊢
  exact ⟨hdoc, hmissing _ rfl, hscalar _ _ rfl rfl,
    (hscalar [.key "grid", .index 0, .index 0, .key "v"] _ rfl rfl).2,
    harray [.key "grid", .index 0] _ rfl⟩

end Projection

end Chronicle
