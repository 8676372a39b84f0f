import Chronicle.Proofs.Fragments

set_option autoImplicit false

/-!
# What projections keep

What several paths select is merged in their order. Where a path selects nothing of an item, an
empty object stands for the item, so that the others keep their places; and where another path
selects the item itself, and that is no object, one of the two replaces the other. Main statements:
the order of two paths matters exactly if they meet so (`Projection.same_apply_pair_iff`); if no
two paths do, each path selects from the projection what it selects from the document, and the
order of the paths does not matter (`Projection.select_apply`).
-/

namespace Chronicle

namespace FieldPath

open Json (Consistent)

/-- Whether all items of which the path selects nothing are objects. -/
def sparesItems : FieldPath → Json → Bool
  | [], _ => true
  | .key name :: rest, v =>
      match v.get? name with
      | some w => sparesItems rest w
      | none => true
  | .each :: rest, .array items =>
      items.all fun v => if (select rest v).isSome then sparesItems rest v else v.isObject
  | .each :: _, _ => true

/-- Whether paths agree on a value: where one of them selects nothing of an item, and so has an
empty object for it, and the other selects some of it, the item is an object. -/
def agreeOn : FieldPath → FieldPath → Json → Bool
  | [], q, v => q.sparesItems v
  | p, [], v => p.sparesItems v
  | .key name :: p, .key name' :: q, v =>
      if name = name' then
        match v.get? name with
        | some w => agreeOn p q w
        | none => true
      else true
  | .each :: p, .each :: q, .array items =>
      items.all fun v =>
        match select p v, select q v with
        | some _, some _ => agreeOn p q v
        | none, none => true
        | _, _ => v.isObject
  | _, _, _ => true

variable {p q : FieldPath} {v a b : Json}

/-! ## Paths that agree -/

/-- An object is consistent with an empty one. -/
theorem consistent_emptyObject (h : v.isObject = true) : Consistent v .emptyObject :=
  .of_enter (Json.head_eq_object_iff.mpr h) fun s x y _ hy => by
    rw [Json.enter_emptyObject] at hy
    cases hy

/-- What paths select of all items agrees if what they select of each item does. -/
theorem consistent_selectEach_iff {items : List Json} :
    Consistent (.array (selectEach p items)) (.array (selectEach q items)) ↔
      ∀ u ∈ items,
        Consistent ((select p u).getD .emptyObject) ((select q u).getD .emptyObject) := by
  constructor
  · intro h u hmem
    obtain ⟨i, hi⟩ := List.mem_iff_getElem?.mp hmem
    exact h.enter (enter_selectEach_index hi p) (enter_selectEach_index hi q)
  · intro h
    refine .of_enter ?_ fun s x y hx hy => ?_
    · rw [Json.head, Json.head, length_selectEach, length_selectEach]
    · obtain ⟨u, hmem, hu, rfl⟩ := enter_selectEach hx
      obtain ⟨u', -, hu', rfl⟩ := enter_selectEach hy
      obtain rfl : u = u' := Option.some.inj (hu.symm.trans hu')
      exact h u hmem

/-- Where only one path selects something, it agrees with the empty object if it is an object. -/
theorem consistent_getD_iff :
    Consistent ((select p v).getD .emptyObject) ((select q v).getD .emptyObject) ↔
      match select p v, select q v with
      | some a, some b => Consistent a b
      | none, none => True
      | _, _ => v.isObject = true := by
  cases hp : select p v with
  | none =>
      cases hq : select q v with
      | none => exact iff_true_intro (.refl _)
      | some b =>
          rw [← isObject_of_select hq]
          exact ⟨fun h => Json.head_eq_object_iff.mp h.head.symm,
            fun h => (consistent_emptyObject h).symm⟩
  | some a =>
      cases hq : select q v with
      | none =>
          rw [← isObject_of_select hp]
          exact ⟨fun h => Json.head_eq_object_iff.mp h.head, consistent_emptyObject⟩
      | some b => exact Iff.rfl

/-- A value agrees with an object of one field if what it has there does. -/
theorem consistent_singleton_iff {u : Json} {name : String} (hu : v.get? name = some u) :
    Consistent v (.object [(name, b)]) ↔ Consistent u b := by
  constructor
  · intro h
    rw [Json.get?_eq_enter] at hu
    exact h.enter hu (if_pos rfl)
  · intro h
    have hhead : v.head = .object := by
      cases v with
      | object fields => rfl
      | _ => cases hu
    refine .of_enter hhead fun s x y hx hy => ?_
    obtain ⟨rfl, rfl⟩ := Json.enter_singleton hy
    rw [Json.get?_eq_enter, hx] at hu
    rwa [Option.some.inj hu]

/-- A path spares the items of a value exactly if what it selects agrees with the value. -/
theorem sparesItems_iff :
    sparesItems q v = true ↔ ∀ b, select q v = some b → Consistent v b := by
  induction q generalizing v with
  | nil => simp [sparesItems, select, Consistent.refl]
  | cons segment rest ih =>
      cases segment with
      | key name =>
          simp only [select_key_eq_some_iff]
          rw [sparesItems]
          cases hu : v.get? name with
          | none => simp
          | some u =>
              rw [ih]
              constructor
              · rintro h b ⟨u', b', ⟨⟩, hb', rfl⟩
                exact (consistent_singleton_iff hu).mpr (h b' hb')
              · intro h b' hb'
                exact (consistent_singleton_iff hu).mp (h _ ⟨u, b', rfl, hb', rfl⟩)
      | each =>
          cases v with
          | array items =>
              have hwhole : selectEach [] items = items := by simp [selectEach_eq_map, select]
              rw [sparesItems, List.all_eq_true, select]
              simp only [Option.some.injEq, forall_eq']
              nth_rewrite 2 [← hwhole]
              rw [consistent_selectEach_iff]
              refine forall₂_congr fun u _ => ?_
              rw [consistent_getD_iff, select]
              cases hx : select rest u with
              | none => exact Iff.rfl
              | some x => simpa [hx] using ih (v := u)
          | _ => simp [sparesItems, select]

/-- Paths agree on a value exactly if what they select of it does. -/
theorem agreeOn_iff : agreeOn p q v = true ↔
    ∀ a b, select p v = some a → select q v = some b → Consistent a b := by
  induction p generalizing q v with
  | nil =>
      rw [agreeOn, sparesItems_iff, select]
      exact ⟨fun h a b ha hb => Option.some.inj ha ▸ h b hb, fun h b => h v b rfl⟩
  | cons segment p ih =>
      cases q with
      | nil =>
          rw [agreeOn, sparesItems_iff, select]
          · exact ⟨fun h a b ha hb => Option.some.inj hb ▸ (h a ha).symm,
              fun h a ha => (h a v ha rfl).symm⟩
          · exact List.cons_ne_nil _ _
      | cons segment' q =>
          cases segment with
          | key name =>
              cases segment' with
              | key name' =>
                  rw [agreeOn]
                  by_cases hname : name = name'
                  · subst hname
                    rw [if_pos rfl]
                    cases hu : v.get? name with
                    | none => simp [select_key_eq_some_iff, hu]
                    | some u =>
                        simp only [select_key_eq_some_iff, hu, Option.some.injEq]
                        rw [ih]
                        have hfield : ∀ a b : Json, Consistent (.object [(name, a)])
                            (.object [(name, b)]) ↔ Consistent a b := fun a b =>
                          consistent_singleton_iff (if_pos rfl)
                        constructor
                        · rintro h _ _ ⟨_, a, rfl, ha, rfl⟩ ⟨_, b, rfl, hb, rfl⟩
                          exact (hfield a b).mpr (h a b ha hb)
                        · intro h a b ha hb
                          exact (hfield a b).mp (h _ _ ⟨u, a, rfl, ha, rfl⟩ ⟨u, b, rfl, hb, rfl⟩)
                  · rw [if_neg hname]
                    refine iff_of_true rfl fun a b ha hb => ?_
                    obtain ⟨_, a, -, -, rfl⟩ := select_key_eq_some_iff.mp ha
                    obtain ⟨_, b, -, -, rfl⟩ := select_key_eq_some_iff.mp hb
                    -- no step leads into both
                    refine .of_enter rfl fun s x y hx hy => ?_
                    obtain ⟨rfl, -⟩ := Json.enter_singleton hx
                    exact (hname (Step.key.inj (Json.enter_singleton hy).1)).elim
              | each => cases v <;> simp [agreeOn, select]
          | each =>
              cases segment' with
              | key name => cases v <;> simp [agreeOn, select]
              | each =>
                  cases v with
                  | array items =>
                      rw [agreeOn, List.all_eq_true]
                      have hselected :
                          (∀ a b, select (.each :: p) (.array items) = some a →
                            select (.each :: q) (.array items) = some b → Consistent a b) ↔
                          Consistent (.array (selectEach p items))
                            (.array (selectEach q items)) := by
                        rw [select, select]
                        exact ⟨fun h => h _ _ rfl rfl, by rintro h _ _ ⟨⟩ ⟨⟩; exact h⟩
                      rw [hselected, consistent_selectEach_iff]
                      refine forall₂_congr fun u _ => ?_
                      rw [consistent_getD_iff]
                      cases hp : select p u <;> cases hq : select q u
                      case some.some a b => simpa [hp, hq] using ih (q := q) (v := u)
                      all_goals simp
                  | _ => simp [agreeOn, select]

theorem agreeOn_self (p : FieldPath) (v : Json) : agreeOn p p v = true :=
  agreeOn_iff.mpr fun a b ha hb => by
    obtain rfl := Option.some.inj (ha.symm.trans hb)
    exact .refl a

theorem agreeOn_symm (h : agreeOn p q v = true) : agreeOn q p v = true :=
  agreeOn_iff.mpr fun a b ha hb => (agreeOn_iff.mp h b a hb ha).symm

end FieldPath

namespace Projection

open Json (Within Consistent)

variable {ps qs : Projection} {doc w : Json}

/-- What the paths of a projection select, in their order. -/
def selections (ps : Projection) (doc : Json) : List Json := ps.filterMap (·.select doc)

theorem mem_selections : w ∈ ps.selections doc ↔ ∃ p ∈ ps, p.select doc = some w :=
  List.mem_filterMap

theorem apply_eq_foldl (ps : Projection) (doc : Json) :
    ps.apply doc = (ps.selections doc).foldl Json.merge .emptyObject := by
  rw [apply, selections, List.foldl_filterMap]
  congr 1
  funext projected path
  cases path.select doc <;> rfl

/-- Where the paths agree, the projection has at each location what any of them selects. -/
theorem view_apply (hdoc : doc.hasDistinctKeys = true)
    (hagree : ∀ p ∈ ps, ∀ q ∈ ps, p.agreeOn q doc = true) :
    (ps.apply doc).hasDistinctKeys = true ∧ ∀ loc g, (ps.apply doc).view loc = some g ↔
      (∃ w ∈ ps.selections doc, w.view loc = some g) ∨
        ps.selections doc = [] ∧ Json.emptyObject.view loc = some g := by
  have hdistinct : ∀ w ∈ ps.selections doc, w.hasDistinctKeys = true := by
    intro w hw
    obtain ⟨p, -, hp⟩ := mem_selections.mp hw
    exact FieldPath.hasDistinctKeys_of_select hdoc hp
  have hconsistent : ∀ v ∈ ps.selections doc, ∀ w ∈ ps.selections doc, Consistent v w := by
    intro v hv w hw
    obtain ⟨p, hpmem, hp⟩ := mem_selections.mp hv
    obtain ⟨q, hqmem, hq⟩ := mem_selections.mp hw
    exact FieldPath.agreeOn_iff.mp (hagree p hpmem q hqmem) v w hp hq
  rw [apply_eq_foldl]
  cases hselections : ps.selections doc with
  | nil => exact ⟨rfl, fun loc g => by simp⟩
  | cons w ws =>
      rw [hselections] at hdistinct hconsistent
      obtain ⟨hw, hws⟩ := List.forall_mem_cons.mp hdistinct
      -- the first takes the place of the empty object, whatever it is
      rw [List.foldl_cons, Json.merge_emptyObject hw]
      obtain ⟨hkeys, hview⟩ := Json.view_foldl_merge hws
        (fun u hu u' hu' => hconsistent u (List.mem_cons_of_mem w hu) u'
          (List.mem_cons_of_mem w hu')) hw
        fun u hu => hconsistent w List.mem_cons_self u (List.mem_cons_of_mem w hu)
      refine ⟨hkeys, fun loc g => (hview loc g).trans ?_⟩
      simp

/-- A projection has nothing but what is in the document, and empty objects. -/
theorem within_apply (hdoc : doc.hasDistinctKeys = true)
    (hagree : ∀ p ∈ ps, ∀ q ∈ ps, p.agreeOn q doc = true) : Within (ps.apply doc) doc := by
  intro loc g hg
  rcases ((view_apply hdoc hagree).2 loc g).mp hg with ⟨w, hw, hwloc⟩ | ⟨-, hempty⟩
  · obtain ⟨p, -, hp⟩ := mem_selections.mp hw
    exact FieldPath.within_of_select hp loc g hwloc
  · exact Within.emptyObject doc loc g hempty

/-- The order of paths that agree does not matter. -/
theorem same_apply_of_perm (hdoc : doc.hasDistinctKeys = true)
    (hagree : ∀ p ∈ ps, ∀ q ∈ ps, p.agreeOn q doc = true) (hperm : ps.Perm qs) :
    (ps.apply doc).same (qs.apply doc) = true := by
  have hagree' : ∀ p ∈ qs, ∀ q ∈ qs, p.agreeOn q doc = true := fun p hp q hq =>
    hagree p (hperm.mem_iff.mpr hp) q (hperm.mem_iff.mpr hq)
  have hselections : (ps.selections doc).Perm (qs.selections doc) := hperm.filterMap _
  have hnil : ps.selections doc = [] ↔ qs.selections doc = [] := by
    rw [← List.perm_nil, ← List.perm_nil, hselections.congr_left]
  obtain ⟨hps, hpsview⟩ := view_apply hdoc hagree
  obtain ⟨hqs, hqsview⟩ := view_apply hdoc hagree'
  refine Json.same_of_view _ _ hps hqs fun loc => Option.ext fun g => ?_
  rw [hpsview, hqsview, hnil]
  simp only [hselections.mem_iff]

theorem apply_pair {p q : FieldPath} {a b : Json} (hdoc : doc.hasDistinctKeys = true)
    (ha : p.select doc = some a) (hb : q.select doc = some b) :
    apply [p, q] doc = Json.merge a b := by
  have hselections : selections [p, q] doc = [a, b] := by
    simp [selections, ha, hb]
  rw [apply_eq_foldl, hselections, List.foldl_cons,
    Json.merge_emptyObject (FieldPath.hasDistinctKeys_of_select hdoc ha)]
  rfl

/-- The order of two paths does not matter exactly if they agree. -/
theorem same_apply_pair_iff (p q : FieldPath) (hdoc : doc.hasDistinctKeys = true) :
    (apply [p, q] doc).same (apply [q, p] doc) = true ↔ p.agreeOn q doc = true := by
  constructor
  · intro hsame
    refine FieldPath.agreeOn_iff.mpr fun a b ha hb => ?_
    rw [apply_pair hdoc ha hb, apply_pair hdoc hb ha] at hsame
    exact Json.consistent_of_same_merge (FieldPath.hasDistinctKeys_of_select hdoc ha)
      (FieldPath.hasDistinctKeys_of_select hdoc hb) (FieldPath.within_of_select ha)
      (FieldPath.within_of_select hb) hsame
  · intro hagree
    refine same_apply_of_perm hdoc (fun p' hp' q' hq' => ?_) (List.Perm.swap q p [])
    have hpair : ∀ x ∈ [p, q], x = p ∨ x = q := fun x hx => by simpa using hx
    rcases hpair p' hp' with rfl | rfl <;> rcases hpair q' hq' with rfl | rfl
    · exact FieldPath.agreeOn_self _ doc
    · exact hagree
    · exact FieldPath.agreeOn_symm hagree
    · exact FieldPath.agreeOn_self _ doc

/-- If no path selects nothing of an item, and so has an empty object for it, where another selects
some of it and it is no object, then each path selects from the projection what it selects from the
document, and the projections onto the same paths in any order are the same. -/
theorem select_apply (ps : Projection) (doc : Json) (hdoc : doc.hasDistinctKeys = true)
    (hagree : ∀ p ∈ ps, ∀ q ∈ ps, p.agreeOn q doc = true) :
    (∀ p ∈ ps, ∀ w, p.select doc = some w →
      ∃ w', p.select (ps.apply doc) = some w' ∧ w'.same w = true) ∧
    ∀ qs : Projection, ps.Perm qs → (ps.apply doc).same (qs.apply doc) = true := by
  refine ⟨fun p hp w hw => ?_, fun qs => same_apply_of_perm hdoc hagree⟩
  obtain ⟨hkeys, hview⟩ := view_apply hdoc hagree
  refine FieldPath.select_of_covers hdoc hkeys (within_apply hdoc hagree) hw fun loc g hg => ?_
  exact (hview loc g).mpr (Or.inl ⟨w, mem_selections.mpr ⟨p, hp, hw⟩, hg⟩)

/-- Orders with lines, where the second order has none. -/
def orders : Json :=
  .object [("orders", .array [
    .object [("id", .number (.int 1)), ("lines", .array [
      .object [("sku", .string "a"), ("count", .number (.int 2))],
      .object [("sku", .string "b")]])],
    .object [("id", .number (.int 2)), ("note", .null)]])]

/-- Paths to the same orders, of which some select nothing of the second order. -/
def orderPaths : Projection :=
  [[.key "orders", .each, .key "id"],
    [.key "orders", .each, .key "lines", .each, .key "count"],
    [.key "orders", .each, .key "lines"]]

theorem select_apply_orders :
    orders.hasDistinctKeys = true ∧
      (∀ p ∈ orderPaths, ∀ q ∈ orderPaths, p.agreeOn q orders = true) ∧
      (∀ p ∈ orderPaths, ∀ w, p.select orders = some w →
        ∃ w', p.select (orderPaths.apply orders) = some w' ∧ w'.same w = true) ∧
      ∀ qs : Projection, orderPaths.Perm qs →
        (orderPaths.apply orders).same (qs.apply orders) = true := by
  have hdoc : orders.hasDistinctKeys = true := by decide +kernel
  have hagree : ∀ p ∈ orderPaths, ∀ q ∈ orderPaths, p.agreeOn q orders = true := by
    simp [orderPaths, orders, FieldPath.agreeOn, FieldPath.sparesItems, FieldPath.select, Json.get?,
      Fields.get?, Json.isObject]
  exact ⟨hdoc, hagree, select_apply orderPaths orders hdoc hagree⟩

/-- An array with an item that is no object. -/
def numbers : Json := .object [("a", .array [.number (.int 1)])]

/-- Where a path selects nothing of a number, and another path selects the number, the empty object
that stands for it replaces it, or it replaces the empty object. -/
theorem not_select_apply :
    (¬ ∀ (ps : Projection) (doc : Json), doc.hasDistinctKeys = true →
      ∀ p ∈ ps, ∀ w, p.select doc = some w →
        ∃ w', p.select (ps.apply doc) = some w' ∧ w'.same w = true) ∧
    ¬ ∀ (ps : Projection) (doc : Json), doc.hasDistinctKeys = true →
      ∀ qs : Projection, ps.Perm qs → (ps.apply doc).same (qs.apply doc) = true := by
  have hkeys : numbers.hasDistinctKeys = true := by decide +kernel
  have hall : FieldPath.select [.key "a"] numbers = some numbers := by
    simp [numbers, FieldPath.select, Fields.get?]
  have hx : FieldPath.select [.key "a", .each, .key "x"] numbers =
      some (.object [("a", .array [.emptyObject])]) := by
    simp [numbers, FieldPath.select, FieldPath.selectEach, Fields.get?]
  have hlost : apply [[.key "a"], [.key "a", .each, .key "x"]] numbers =
      .object [("a", .array [.emptyObject])] := by
    rw [apply, List.foldl_cons, List.foldl_cons, hall, hx]
    rfl
  have hkept : apply [[.key "a", .each, .key "x"], [.key "a"]] numbers = numbers := by
    rw [apply, List.foldl_cons, List.foldl_cons, hall, hx]
    rfl
  have hleft : FieldPath.select [.key "a"] (.object [("a", .array [.emptyObject])]) =
      some (.object [("a", .array [.emptyObject])]) := by
    simp [FieldPath.select, Fields.get?]
  constructor
  · intro h
    obtain ⟨w', hw', hsame⟩ := h [[.key "a"], [.key "a", .each, .key "x"]] numbers hkeys [.key "a"]
      List.mem_cons_self numbers hall
    rw [hlost, hleft] at hw'
    obtain rfl := Option.some.inj hw'
    revert hsame
    decide +kernel
  · intro h
    have hsame := h [[.key "a"], [.key "a", .each, .key "x"]] numbers hkeys
      [[.key "a", .each, .key "x"], [.key "a"]] (List.Perm.swap _ _ [])
    rw [hlost, hkept] at hsame
    revert hsame
    decide +kernel

end Projection

end Chronicle
