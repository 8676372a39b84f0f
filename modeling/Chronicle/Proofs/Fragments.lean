import Chronicle.Proofs.Locations

set_option autoImplicit false

/-!
# Fragments of values

What a path selects is a fragment of the value: there is nothing in it but what is in the value,
and empty objects. Main statements: a fragment that has all that a path selects has the same
selected (`FieldPath.select_of_covers`), and fragments of one value whose merge does not depend on
the order agree (`Json.consistent_of_same_merge`).
-/

namespace Chronicle

namespace Json

variable {a b r u v w : Json} {s : Step} {loc : Location} {name : String}

theorem enter_emptyObject (s : Step) : emptyObject.enter s = none := by cases s <;> rfl

theorem get?_eq_enter (v : Json) (name : String) : v.get? name = v.enter (.key name) := by
  cases v <;> rfl

/-- An object with one field has nothing but that field. -/
theorem enter_singleton (h : (object [(name, u)]).enter s = some w) : s = .key name ∧ w = u := by
  cases s with
  | key k =>
      rw [enter, Fields.get?] at h
      split at h
      · next hk => exact ⟨by rw [hk], (Option.some.inj h).symm⟩
      · cases h
  | index i => cases h

theorem head_eq_object_iff : v.head = .object ↔ v.isObject = true := by
  cases v <;> simp [head, isObject]

theorem eq_array_of_head {n : Nat} (h : v.head = .array n) :
    ∃ items, v = .array items ∧ items.length = n := by
  cases v with
  | array items => exact ⟨items, rfl, Head.array.inj h⟩
  | _ => cases h

/-! ## Values that are the same -/

theorem same_singleton (h : v.same w = true) :
    (object [(name, v)]).same (.object [(name, w)]) = true := by
  rw [same, fieldsWithin, fieldsWithin, Fields.get?, if_pos rfl]
  simp [h]

/-- What is made of items is the same if it is at each index. -/
theorem sameItems_map {f k : Json → Json} {as bs : List Json} (hlength : as.length = bs.length)
    (h : ∀ (i : Nat) (a b : Json), as[i]? = some a → bs[i]? = some b →
      (f a).same (k b) = true) : sameItems (as.map f) (bs.map k) = true := by
  induction as generalizing bs with
  | nil =>
      cases bs with
      | nil => rfl
      | cons b bs => cases hlength
  | cons a as ih =>
      cases bs with
      | nil => cases hlength
      | cons b bs =>
          rw [List.map_cons, List.map_cons, sameItems, Bool.and_eq_true]
          exact ⟨h 0 a b rfl rfl, ih (Nat.succ.inj hlength) fun i => h (i + 1)⟩

theorem getElem?_of_sameItems {as bs : List Json} {i : Nat} (h : sameItems as bs = true)
    (ha : as[i]? = some a) : ∃ b, bs[i]? = some b ∧ a.same b = true := by
  induction as generalizing bs i with
  | nil => cases ha
  | cons a' as ih =>
      cases bs with
      | nil => cases h
      | cons b' bs =>
          rw [sameItems, Bool.and_eq_true] at h
          cases i with
          | zero =>
              obtain rfl := Option.some.inj ha
              exact ⟨b', rfl, h.1⟩
          | succ i =>
              rw [List.getElem?_cons_succ] at ha ⊢
              exact ih h.2 ha

theorem get?_of_fieldsWithin {as bs : Fields} (h : fieldsWithin as bs = true)
    (ha : Fields.get? name as = some a) : ∃ b, Fields.get? name bs = some b ∧ a.same b = true := by
  induction as with
  | nil => cases ha
  | cons field as ih =>
      obtain ⟨k, a'⟩ := field
      rw [fieldsWithin, Bool.and_eq_true] at h
      rw [Fields.get?] at ha
      split at ha
      · next hk =>
        obtain rfl := Option.some.inj ha
        obtain ⟨h, -⟩ := h
        rw [hk] at h
        split at h
        · next b hb => exact ⟨b, hb, h⟩
        · cases h
      · exact ih h.2 ha

/-- Values that are the same have the same behind each step. -/
theorem enter_of_same (h : v.same w = true) (ha : v.enter s = some a) :
    ∃ b, w.enter s = some b ∧ a.same b = true := by
  cases v <;> cases w <;> simp only [same, Bool.false_eq_true] at h
  case array.array as bs =>
    cases s with
    | key name => cases ha
    | index i => exact getElem?_of_sameItems h ha
  case object.object as bs =>
    cases s with
    | key name => exact get?_of_fieldsWithin (Bool.and_eq_true_iff.mp h).2 ha
    | index i => cases ha
  all_goals cases s <;> cases ha

/-! ## Fragments -/

/-- What stands anywhere in the first value stands there in the second, or is an object. -/
def Within (r v : Json) : Prop :=
  ∀ (loc : Location) (g : Head), r.view loc = some g →
    ∃ g', v.view loc = some g' ∧ (g = g' ∨ g = .object)

namespace Within

theorem refl (v : Json) : Within v v := fun _ g hg => ⟨g, hg, Or.inl rfl⟩

/-- Where a step leads somewhere in the first value, it does so in the second. -/
theorem enter (h : Within r v) (hr : r.enter s = some w) :
    ∃ u, v.enter s = some u ∧ Within w u := by
  obtain ⟨g, hg, -⟩ := h [s] _ (view_of_enter hr [])
  obtain ⟨u, hu, -⟩ := enter_of_view hg
  refine ⟨u, hu, fun loc g hg => ?_⟩
  rw [← view_of_enter hu]
  exact h (s :: loc) g ((view_of_enter hr loc).trans hg)

/-- Fragments of one value have the same head if both or none of them is an object. -/
theorem head_eq (ha : Within a v) (hb : Within b v) (h : a.isObject = b.isObject) :
    a.head = b.head := by
  obtain ⟨g, hg, hag⟩ := ha [] _ rfl
  obtain ⟨g', hg', hbg⟩ := hb [] _ rfl
  obtain rfl := Option.some.inj (hg.symm.trans hg')
  cases hobject : a.isObject with
  | true =>
      rw [Json.head_eq_object_iff.mpr hobject, Json.head_eq_object_iff.mpr (h ▸ hobject)]
  | false =>
      have hne : ∀ {x : Json}, x.isObject = false → x.head ≠ .object := fun hx hhead => by
        rw [Json.head_eq_object_iff, hx] at hhead
        cases hhead
      rw [hag.resolve_right (hne hobject), hbg.resolve_right (hne (h ▸ hobject))]

theorem of_enter (hhead : r.head = v.head ∨ r.head = .object)
    (h : ∀ s w, r.enter s = some w → ∃ u, v.enter s = some u ∧ Within w u) : Within r v := by
  intro loc g hg
  cases loc with
  | nil =>
      obtain rfl := Option.some.inj hg
      exact ⟨_, rfl, hhead⟩
  | cons s loc =>
      obtain ⟨w, hw, hwloc⟩ := enter_of_view hg
      obtain ⟨u, hu, hwithin⟩ := h s w hw
      rw [view_of_enter hu]
      exact hwithin loc g hwloc

theorem emptyObject (v : Json) : Within emptyObject v :=
  of_enter (Or.inr rfl) fun s w hw => by
    rw [enter_emptyObject] at hw
    cases hw

end Within

theorem isObject_eq_of_same_merge (h : (merge a b).same (merge b a) = true) :
    a.isObject = b.isObject := by
  cases a <;> cases b <;> first | rfl | cases h

/-- Fragments of one value agree if their merge does not depend on the order. -/
theorem consistent_of_same_merge (ha : a.hasDistinctKeys = true) (hb : b.hasDistinctKeys = true)
    (hav : Within a v) (hbv : Within b v) (h : (merge a b).same (merge b a) = true) :
    Consistent a b := by
  intro loc g g' hg hg'
  induction loc generalizing a b v with
  | nil =>
      rw [← Option.some.inj hg, ← Option.some.inj hg']
      exact hav.head_eq hbv (isObject_eq_of_same_merge h)
  | cons s loc ih =>
      have hhead := hav.head_eq hbv (isObject_eq_of_same_merge h)
      obtain ⟨x, hx, hxloc⟩ := enter_of_view hg
      obtain ⟨y, hy, hyloc⟩ := enter_of_view hg'
      obtain ⟨u, hu, hxu⟩ := hav.enter hx
      obtain ⟨u', hu', hyu⟩ := hbv.enter hy
      obtain rfl := Option.some.inj (hu.symm.trans hu')
      -- the step leads into both, and so into both merges
      have hleft : (merge a b).enter s = some (merge x y) := by
        rw [enter_merge hb hhead, hx, hy]
        rfl
      have hright : (merge b a).enter s = some (merge y x) := by
        rw [enter_merge ha hhead.symm, hx, hy]
        rfl
      obtain ⟨z, hz, hsame⟩ := enter_of_same h hleft
      obtain rfl := Option.some.inj (hright.symm.trans hz)
      exact ih (hasDistinctKeys_of_enter ha hx) (hasDistinctKeys_of_enter hb hy) hxu hyu hsame
        hxloc hyloc

end Json

namespace FieldPath

open Json (Within)

variable {p rest : FieldPath} {r v w : Json} {name : String}

/-! ## What one path selects -/

theorem select_key_eq_some_iff :
    select (.key name :: rest) v = some w ↔
      ∃ u w', v.get? name = some u ∧ select rest u = some w' ∧ w = .object [(name, w')] := by
  cases v with
  | object fields =>
      rw [select, Json.get?]
      cases Fields.get? name fields with
      | none => simp
      | some u =>
          rw [Option.map_eq_some_iff]
          constructor
          · rintro ⟨w', hw', rfl⟩
            exact ⟨u, w', rfl, hw', rfl⟩
          · rintro ⟨u', w', ⟨⟩, hw', rfl⟩
            exact ⟨w', hw', rfl⟩
  | _ => simp [select, Json.get?]

theorem select_each_eq_some_iff :
    select (.each :: rest) v = some w ↔
      ∃ items, v = .array items ∧ w = .array (selectEach rest items) := by
  cases v with
  | array items => simp [select, eq_comm]
  | _ => simp [select]

theorem selectEach_eq_map (path : FieldPath) (items : List Json) :
    selectEach path items = items.map fun v => (select path v).getD .emptyObject := by
  induction items with
  | nil => rw [selectEach, List.map_nil]
  | cons v more ih =>
      rw [selectEach, List.map_cons, ih]
      cases select path v <;> rfl

theorem length_selectEach (path : FieldPath) (items : List Json) :
    (selectEach path items).length = items.length := by
  rw [selectEach_eq_map, List.length_map]

/-- At the index of an item stands what is selected of it. -/
theorem enter_selectEach_index {items : List Json} {i : Nat} (h : items[i]? = some v)
    (path : FieldPath) : (Json.array (selectEach path items)).enter (.index i) =
      some ((select path v).getD .emptyObject) := by
  rw [Json.enter, selectEach_eq_map, List.getElem?_map, h, Option.map_some]

/-- A step into what is selected of items leads to what is selected of one of them. -/
theorem enter_selectEach {path : FieldPath} {items : List Json} {s : Step}
    (h : (Json.array (selectEach path items)).enter s = some w) :
    ∃ v ∈ items, (Json.array items).enter s = some v ∧
      w = (select path v).getD .emptyObject := by
  cases s with
  | key name => cases h
  | index i =>
      rw [Json.enter, selectEach_eq_map, List.getElem?_map] at h
      obtain ⟨v, hv, rfl⟩ := Option.map_eq_some_iff.mp h
      exact ⟨v, List.mem_of_getElem? hv, hv, rfl⟩

/-- A path selects nothing but what is there, and empty objects. -/
theorem within_of_select (h : select p v = some w) : Within w v := by
  induction p generalizing v w with
  | nil =>
      rw [select] at h
      obtain rfl := Option.some.inj h
      exact .refl _
  | cons segment rest ih =>
      cases segment with
      | key name =>
          obtain ⟨u, w', hu, hw', rfl⟩ := select_key_eq_some_iff.mp h
          refine .of_enter (Or.inr rfl) fun s x hx => ?_
          obtain ⟨rfl, rfl⟩ := Json.enter_singleton hx
          rw [Json.get?_eq_enter] at hu
          exact ⟨u, hu, ih hw'⟩
      | each =>
          obtain ⟨items, rfl, rfl⟩ := select_each_eq_some_iff.mp h
          refine .of_enter (Or.inl ?_) fun s x hx => ?_
          · rw [Json.head, Json.head, length_selectEach]
          · obtain ⟨u, -, hu, rfl⟩ := enter_selectEach hx
            refine ⟨u, hu, ?_⟩
            cases hw : select rest u with
            | none => exact .emptyObject u
            | some w => exact ih hw

theorem hasDistinctKeys_of_select (hv : v.hasDistinctKeys = true) (h : select p v = some w) :
    w.hasDistinctKeys = true := by
  induction p generalizing v w with
  | nil =>
      rw [select] at h
      obtain rfl := Option.some.inj h
      exact hv
  | cons segment rest ih =>
      cases segment with
      | key name =>
          obtain ⟨u, w', hu, hw', rfl⟩ := select_key_eq_some_iff.mp h
          rw [Json.get?_eq_enter] at hu
          have hw := ih (Json.hasDistinctKeys_of_enter hv hu) hw'
          exact Json.hasDistinctKeys_object.mpr
            ⟨List.nodup_cons.mpr ⟨List.not_mem_nil, List.nodup_nil⟩, by simpa using hw⟩
      | each =>
          obtain ⟨items, rfl, rfl⟩ := select_each_eq_some_iff.mp h
          rw [Json.hasDistinctKeys_array] at hv ⊢
          rw [selectEach_eq_map]
          refine List.forall_mem_map.mpr fun u hu => ?_
          cases hw : select rest u with
          | none => rfl
          | some w => exact ih (hv u hu) hw

/-- What is selected is an object if it is selected of one. -/
theorem isObject_of_select (h : select p v = some w) : w.isObject = v.isObject := by
  cases p with
  | nil =>
      rw [select] at h
      rw [Option.some.inj h]
  | cons segment rest =>
      cases segment with
      | key name =>
          obtain ⟨u, w', hu, -, rfl⟩ := select_key_eq_some_iff.mp h
          cases v with
          | object fields => rfl
          | _ => cases hu
      | each =>
          obtain ⟨items, rfl, rfl⟩ := select_each_eq_some_iff.mp h
          rfl

/-! ## Selecting from less -/

/-- A path selects from a value if it does from a part of it. -/
theorem isSome_select_of_within (h : Within r v) (hr : select p r = some w) :
    ∃ w', select p v = some w' := by
  induction p generalizing r v w with
  | nil => exact ⟨v, by rw [select]⟩
  | cons segment rest ih =>
      cases segment with
      | key name =>
          obtain ⟨u, w', hu, hw', rfl⟩ := select_key_eq_some_iff.mp hr
          rw [Json.get?_eq_enter] at hu
          obtain ⟨u', hu', hwithin⟩ := h.enter hu
          obtain ⟨x, hx⟩ := ih hwithin hw'
          rw [← Json.get?_eq_enter] at hu'
          exact ⟨_, select_key_eq_some_iff.mpr ⟨u', x, hu', hx, rfl⟩⟩
      | each =>
          obtain ⟨items, rfl, rfl⟩ := select_each_eq_some_iff.mp hr
          obtain ⟨g, hg, rfl | hg'⟩ := h [] _ rfl
          · obtain ⟨items', rfl, -⟩ := Json.eq_array_of_head (Option.some.inj hg)
            exact ⟨_, select_each_eq_some_iff.mpr ⟨items', rfl, rfl⟩⟩
          · cases hg'

/-- A path selects from a part of a value what it does from the value, if the part has all of
that. -/
theorem select_of_covers (hv : v.hasDistinctKeys = true) (hr : r.hasDistinctKeys = true)
    (hwithin : Within r v) (hw : select p v = some w)
    (hcovers : ∀ loc g, w.view loc = some g → r.view loc = some g) :
    ∃ w', select p r = some w' ∧ w'.same w = true := by
  induction p generalizing r v w with
  | nil =>
      rw [select] at hw
      obtain rfl := Option.some.inj hw
      refine ⟨r, by rw [select], Json.same_of_view r v hr hv fun loc => ?_⟩
      cases hloc : v.view loc with
      | some g => exact hcovers loc g hloc
      | none =>
          refine Option.eq_none_iff_forall_ne_some.mpr fun g hg => ?_
          obtain ⟨g', hg', -⟩ := hwithin loc g hg
          rw [hloc] at hg'
          cases hg'
  | cons segment rest ih =>
      cases segment with
      | key name =>
          obtain ⟨u, x, hu, hx, rfl⟩ := select_key_eq_some_iff.mp hw
          rw [Json.get?_eq_enter] at hu
          have hfield : (Json.object [(name, x)]).enter (.key name) = some x := if_pos rfl
          obtain ⟨t, ht, -⟩ := Json.enter_of_view
            (hcovers [.key name] _ (Json.view_of_enter hfield []))
          obtain ⟨u', hu', htu⟩ := hwithin.enter ht
          obtain rfl : u' = u := Option.some.inj (hu'.symm.trans hu)
          obtain ⟨x', hx', hsame⟩ := ih (Json.hasDistinctKeys_of_enter hv hu)
            (Json.hasDistinctKeys_of_enter hr ht) htu hx fun loc g hg => by
              rw [← Json.view_of_enter ht]
              exact hcovers _ g ((Json.view_of_enter hfield loc).trans hg)
          rw [← Json.get?_eq_enter] at ht
          exact ⟨_, select_key_eq_some_iff.mpr ⟨t, x', ht, hx', rfl⟩, Json.same_singleton hsame⟩
      | each =>
          obtain ⟨items, rfl, rfl⟩ := select_each_eq_some_iff.mp hw
          have hhead := hcovers [] _ rfl
          rw [Json.head, length_selectEach] at hhead
          obtain ⟨parts, rfl, hlength⟩ := Json.eq_array_of_head (Option.some.inj hhead)
          refine ⟨_, select_each_eq_some_iff.mpr ⟨parts, rfl, rfl⟩, ?_⟩
          rw [Json.same, selectEach_eq_map, selectEach_eq_map]
          refine Json.sameItems_map hlength fun i part item hpart hitem => ?_
          obtain ⟨u, hu, hin⟩ := hwithin.enter (s := .index i) hpart
          obtain rfl : u = item := Option.some.inj (hu.symm.trans hitem)
          cases hx : select rest u with
          | none =>
              cases hx' : select rest part with
              | none => rfl
              | some y =>
                  obtain ⟨y', hy'⟩ := isSome_select_of_within hin hx'
                  rw [hx] at hy'
                  cases hy'
          | some x =>
              have hselected := enter_selectEach_index hitem rest
              rw [hx] at hselected
              obtain ⟨x', hx', hsame⟩ := ih (Json.hasDistinctKeys_of_enter hv hu)
                (Json.hasDistinctKeys_of_enter hr (s := .index i) hpart) hin hx fun loc g hg => by
                  rw [← Json.view_index hpart]
                  exact hcovers _ g ((Json.view_of_enter hselected loc).trans hg)
              rw [hx']
              exact hsame

end FieldPath

end Chronicle
