import Chronicle.Proofs.JsonReading
import Chronicle.Projection

set_option autoImplicit false

/-!
# What stands where in a value

A value is told by what stands at each of its locations, the order of keys apart. Main statements:
values with the same view are the same (`Json.same_of_view`), and where two values agree wherever
both have something, their merge has what either of them has (`Json.view_merge`).
-/

namespace Chronicle

/-- A step into a value: to a field of an object, or to an item of an array. -/
inductive Step
  | key (name : String)
  | index (i : Nat)
deriving DecidableEq

/-- Where something stands in a value. -/
abbrev Location := List Step

namespace Fields

variable {key k : String} {v : Json} {fields : Fields}

theorem get?_set (key : String) (v : Json) (fields : Fields) (k : String) :
    get? k (set key v fields) = if key = k then some v else get? k fields := by
  induction fields with
  | nil => rfl
  | cons field rest ih =>
      obtain ⟨k', w⟩ := field
      rw [set]
      by_cases hkey : k' = key
      · rw [if_pos hkey, get?, get?, hkey]
        split <;> rfl
      · rw [if_neg hkey, get?, get?, ih]
        by_cases hk : k' = k
        · rw [if_pos hk, if_pos hk, if_neg]
          rintro rfl
          exact hkey hk
        · rw [if_neg hk, if_neg hk]

theorem mem_of_get? (h : get? k fields = some v) : (k, v) ∈ fields := by
  induction fields with
  | nil => cases h
  | cons field rest ih =>
      obtain ⟨k', w⟩ := field
      rw [get?] at h
      split at h
      · next hk =>
        cases h
        rw [hk]
        exact List.mem_cons_self
      · exact List.mem_cons_of_mem _ (ih h)

theorem mem_set {e : String × Json} (h : e ∈ set key v fields) : e = (key, v) ∨ e ∈ fields := by
  induction fields with
  | nil => exact Or.inl (List.mem_singleton.mp h)
  | cons field rest ih =>
      obtain ⟨k', w⟩ := field
      rw [set] at h
      split at h
      · next hk =>
        rcases List.mem_cons.mp h with rfl | hmem
        · exact Or.inl (by rw [hk])
        · exact Or.inr (List.mem_cons_of_mem _ hmem)
      · rcases List.mem_cons.mp h with rfl | hmem
        · exact Or.inr List.mem_cons_self
        · exact (ih hmem).imp_right (List.mem_cons_of_mem _)

theorem get?_isSome_iff : (get? k fields).isSome = true ↔ k ∈ keys fields := by
  rw [← not_iff_not, ← get?_eq_none_iff, Option.not_isSome_iff_eq_none]

/-- A key that is set is not repeated. -/
theorem nodup_keys_set (h : (keys fields).Nodup) (key : String) (v : Json) :
    (keys (set key v fields)).Nodup := by
  induction fields with
  | nil => exact List.nodup_cons.mpr ⟨List.not_mem_nil, List.nodup_nil⟩
  | cons field rest ih =>
      obtain ⟨k', w⟩ := field
      rw [keys_cons, List.nodup_cons] at h
      rw [set]
      by_cases hkey : k' = key
      · rw [if_pos hkey, keys_cons, List.nodup_cons]
        exact h
      · rw [if_neg hkey, keys_cons, List.nodup_cons]
        refine ⟨fun hmem => ?_, ih h.2⟩
        obtain ⟨e, he, rfl⟩ := List.mem_map.mp hmem
        rcases mem_set he with rfl | hrest
        · exact hkey rfl
        · exact h.1 (List.mem_map_of_mem hrest)

end Fields

theorem Number.same_self (n : Number) : n.same n = true := by
  cases n with
  | int m => exact beq_self_eq_true m
  | float x => exact beq_iff_eq.mpr Std.compare_self

namespace Json

/-- A value apart from the fields or the items in it. -/
inductive Head
  | null
  | bool (value : Bool)
  | number (value : Number)
  | string (text : String)
  | array (length : Nat)
  | object

/-- The value apart from its fields or items. -/
def head : Json → Head
  | null => .null
  | bool b => .bool b
  | number n => .number n
  | string text => .string text
  | array items => .array items.length
  | object _ => .object

/-- What a step leads to. -/
def enter : Json → Step → Option Json
  | object fields, .key name => Fields.get? name fields
  | array items, .index i => items[i]?
  | _, _ => none

/-- What stands at a location. -/
def at? : Json → Location → Option Json
  | v, [] => some v
  | v, s :: loc =>
      match v.enter s with
      | some w => at? w loc
      | none => none

/-- What stands at a location, apart from what stands below it. -/
def view (v : Json) (loc : Location) : Option Head := (v.at? loc).map head

variable {a b v w x y : Json} {s : Step} {loc : Location}

@[simp] theorem view_nil (v : Json) : v.view [] = some v.head := rfl

theorem view_cons (v : Json) (s : Step) (loc : Location) :
    v.view (s :: loc) = (v.enter s).bind (view · loc) := by
  unfold view
  rw [at?]
  cases v.enter s <;> rfl

theorem view_of_enter (h : v.enter s = some w) (loc : Location) :
    v.view (s :: loc) = w.view loc := by
  rw [view_cons, h, Option.bind_some]

theorem enter_of_view {h : Head} (hview : v.view (s :: loc) = some h) :
    ∃ w, v.enter s = some w ∧ w.view loc = some h := by
  rw [view_cons] at hview
  exact Option.bind_eq_some_iff.mp hview

/-! ## Values without repeated keys -/

theorem itemsHaveDistinctKeys_iff {items : List Json} :
    itemsHaveDistinctKeys items = true ↔ ∀ v ∈ items, v.hasDistinctKeys = true := by
  induction items with
  | nil => simp [itemsHaveDistinctKeys]
  | cons v rest ih => rw [itemsHaveDistinctKeys, Bool.and_eq_true, ih, List.forall_mem_cons]

theorem fieldsHaveDistinctKeys_iff {fields : Fields} :
    fieldsHaveDistinctKeys fields = true ↔ ∀ e ∈ fields, e.2.hasDistinctKeys = true := by
  induction fields with
  | nil => simp [fieldsHaveDistinctKeys]
  | cons field rest ih =>
      rw [fieldsHaveDistinctKeys, Bool.and_eq_true, ih, List.forall_mem_cons]

theorem hasDistinctKeys_object {fields : Fields} :
    (object fields).hasDistinctKeys = true ↔
      fields.keys.Nodup ∧ ∀ e ∈ fields, e.2.hasDistinctKeys = true := by
  rw [hasDistinctKeys, Bool.and_eq_true, Fields.distinct_iff, fieldsHaveDistinctKeys_iff]

theorem hasDistinctKeys_array {items : List Json} :
    (array items).hasDistinctKeys = true ↔ ∀ v ∈ items, v.hasDistinctKeys = true := by
  rw [hasDistinctKeys, itemsHaveDistinctKeys_iff]

theorem hasDistinctKeys_of_enter (h : v.hasDistinctKeys = true) (hw : v.enter s = some w) :
    w.hasDistinctKeys = true := by
  cases v with
  | object fields =>
      cases s with
      | key name => exact (hasDistinctKeys_object.mp h).2 _ (Fields.mem_of_get? hw)
      | index i => cases hw
  | array items =>
      cases s with
      | key name => cases hw
      | index i => exact hasDistinctKeys_array.mp h _ (List.mem_of_getElem? hw)
  | _ => cases s <;> cases hw

/-! ## Values with the same view -/

theorem view_key {fields : Fields} {key : String} (h : Fields.get? key fields = some w)
    (loc : Location) : (object fields).view (.key key :: loc) = w.view loc := by
  have henter : (object fields).enter (.key key) = some w := h
  exact view_of_enter henter loc

theorem view_index {items : List Json} {i : Nat} (h : items[i]? = some w) (loc : Location) :
    (array items).view (.index i :: loc) = w.view loc := by
  have henter : (array items).enter (.index i) = some w := h
  exact view_of_enter henter loc

/-- A step leads somewhere if something is seen there. -/
theorem isSome_view_singleton (v : Json) (s : Step) :
    (v.view [s]).isSome = (v.enter s).isSome := by
  rw [view_cons]
  cases v.enter s <;> rfl

/-- Objects that have something at the same locations have the same keys. -/
theorem keys_perm_of_view {as bs : Fields} (ha : as.keys.Nodup) (hb : bs.keys.Nodup)
    (h : ∀ loc, (object as).view loc = (object bs).view loc) : as.keys.Perm bs.keys := by
  refine (List.perm_ext_iff_of_nodup ha hb).mpr fun key => ?_
  have hkey : (Fields.get? key as).isSome = (Fields.get? key bs).isSome := by
    have has := isSome_view_singleton (object as) (.key key)
    have hbs := isSome_view_singleton (object bs) (.key key)
    rw [h] at has
    exact has.symm.trans hbs
  rw [← Fields.get?_isSome_iff, ← Fields.get?_isSome_iff, hkey]

mutual

/-- What values have at their locations tells them, the order of keys apart. -/
theorem same_of_view (a b : Json) (ha : a.hasDistinctKeys = true) (hb : b.hasDistinctKeys = true)
    (h : ∀ loc, a.view loc = b.view loc) : a.same b = true := by
  have hhead : a.head = b.head := Option.some.inj (h [])
  cases a <;> cases b <;> simp only [head, reduceCtorEq] at hhead
  case null.null => rfl
  case bool.bool a b => exact beq_iff_eq.mpr (Head.bool.inj hhead)
  case number.number m n =>
    rw [Head.number.inj hhead]
    exact Number.same_self n
  case string.string a b => exact beq_iff_eq.mpr (Head.string.inj hhead)
  case array.array as bs =>
    refine sameItems_of_view as bs (Head.array.inj hhead) (hasDistinctKeys_array.mp ha)
      (hasDistinctKeys_array.mp hb) fun i a b hai hbi loc => ?_
    rw [← view_index hai, h, view_index hbi]
  case object.object as bs =>
    obtain ⟨haskeys, has⟩ := hasDistinctKeys_object.mp ha
    obtain ⟨hbskeys, hbs⟩ := hasDistinctKeys_object.mp hb
    have hperm := keys_perm_of_view haskeys hbskeys h
    have hlength : as.length = bs.length := by
      have hkeys := hperm.length_eq
      rwa [Fields.keys, Fields.keys, List.length_map, List.length_map] at hkeys
    rw [same, hlength, beq_self_eq_true, Bool.true_and]
    refine fieldsWithin_of_view as bs haskeys has fun key a hkey => ?_
    have hsome : (Fields.get? key bs).isSome = true := by
      rw [Fields.get?_isSome_iff, ← hperm.mem_iff, ← Fields.get?_isSome_iff, hkey]
      rfl
    obtain ⟨b, hb⟩ := Option.isSome_iff_exists.mp hsome
    refine ⟨b, hb, hbs _ (Fields.mem_of_get? hb), fun loc => ?_⟩
    rw [← view_key hkey, h, view_key hb]

theorem sameItems_of_view (as bs : List Json) (hlength : as.length = bs.length)
    (ha : ∀ a ∈ as, a.hasDistinctKeys = true) (hb : ∀ b ∈ bs, b.hasDistinctKeys = true)
    (h : ∀ (i : Nat) (a b : Json), as[i]? = some a → bs[i]? = some b →
      ∀ loc, a.view loc = b.view loc) : sameItems as bs = true := by
  match as, bs with
  | [], [] => rfl
  | [], _ :: _ => cases hlength
  | _ :: _, [] => cases hlength
  | a :: as, b :: bs =>
    obtain ⟨ha, has⟩ := List.forall_mem_cons.mp ha
    obtain ⟨hb, hbs⟩ := List.forall_mem_cons.mp hb
    rw [sameItems, Bool.and_eq_true]
    exact ⟨same_of_view a b ha hb (h 0 a b rfl rfl),
      sameItems_of_view as bs (Nat.succ.inj hlength) has hbs fun i => h (i + 1)⟩

theorem fieldsWithin_of_view (as : List (String × Json)) (bs : List (String × Json))
    (hkeys : (Fields.keys as).Nodup) (ha : ∀ e ∈ as, e.2.hasDistinctKeys = true)
    (h : ∀ (key : String) (a : Json), Fields.get? key as = some a →
      ∃ b, Fields.get? key bs = some b ∧ b.hasDistinctKeys = true ∧
        ∀ loc, a.view loc = b.view loc) : fieldsWithin as bs = true := by
  match as with
  | [] => rfl
  | (key, a) :: as =>
    rw [Fields.keys_cons, List.nodup_cons] at hkeys
    obtain ⟨ha, has⟩ := List.forall_mem_cons.mp ha
    obtain ⟨b, hb, hdistinct, hview⟩ := h key a (if_pos rfl)
    rw [fieldsWithin, hb, Bool.and_eq_true]
    refine ⟨same_of_view a b ha hdistinct hview, ?_⟩
    refine fieldsWithin_of_view as bs hkeys.2 has fun key' a' hkey' => h key' a' ?_
    rw [Fields.get?, if_neg, hkey']
    -- no key comes again
    rintro rfl
    exact hkeys.1 (Fields.get?_isSome_iff.mp (by rw [hkey']; rfl))

end

/-! ## Merging values that agree -/

/-- The values agree wherever both have something. -/
def Consistent (a b : Json) : Prop :=
  ∀ (loc : Location) (g h : Head), a.view loc = some g → b.view loc = some h → g = h

namespace Consistent

theorem refl (a : Json) : Consistent a a := fun _ _ _ hg hh => Option.some.inj (hg.symm.trans hh)

theorem symm (h : Consistent a b) : Consistent b a := fun loc g g' hg hg' =>
  (h loc g' g hg' hg).symm

theorem head (h : Consistent a b) : a.head = b.head := h [] _ _ rfl rfl

theorem enter (h : Consistent a b) (hv : a.enter s = some v) (hw : b.enter s = some w) :
    Consistent v w := by
  intro loc g g' hg hg'
  exact h (s :: loc) g g' ((view_of_enter hv loc).trans hg) ((view_of_enter hw loc).trans hg')

/-- Values agree if they do apart from what is in them, and so does what any step leads to. -/
theorem of_enter (hhead : a.head = b.head)
    (h : ∀ s v w, a.enter s = some v → b.enter s = some w → Consistent v w) : Consistent a b := by
  intro loc g g' hg hg'
  cases loc with
  | nil => exact (Option.some.inj hg).symm.trans (hhead.trans (Option.some.inj hg'))
  | cons s loc =>
      obtain ⟨v, hv, hvloc⟩ := enter_of_view hg
      obtain ⟨w, hw, hwloc⟩ := enter_of_view hg'
      exact h s v w hv hw loc g g' hvloc hwloc

end Consistent

theorem get?_mergeFields {bs : Fields} (hb : bs.keys.Nodup) (as : Fields) (key : String) :
    Fields.get? key (mergeFields as bs) =
      Option.merge merge (Fields.get? key as) (Fields.get? key bs) := by
  induction bs generalizing as with
  | nil =>
      rw [mergeFields, Fields.get?]
      cases Fields.get? key as <;> rfl
  | cons field bs ih =>
      obtain ⟨k, b⟩ := field
      rw [Fields.keys_cons, List.nodup_cons] at hb
      rw [mergeFields, ih hb.2, Fields.get?_set, Fields.get?]
      by_cases hk : k = key
      · -- the key does not come again
        have hnone : Fields.get? key bs = none := Fields.get?_eq_none_iff.mpr (hk ▸ hb.1)
        rw [if_pos hk, if_pos hk, hnone, hk]
        cases Fields.get? key as <;> rfl
      · rw [if_neg hk, if_neg hk]

theorem getElem?_mergeItems (as bs : List Json) (i : Nat) :
    (mergeItems as bs)[i]? = Option.merge merge as[i]? bs[i]? := by
  induction as generalizing bs i with
  | nil =>
      rw [mergeItems, List.getElem?_nil]
      cases bs[i]? <;> rfl
  | cons a as ih =>
      cases bs with
      | nil =>
          rw [mergeItems, List.getElem?_nil]
          · cases (a :: as)[i]? <;> rfl
          · exact nofun
      | cons b bs =>
          rw [mergeItems]
          cases i with
          | zero => rfl
          | succ i => exact ih bs i

theorem length_mergeItems {as bs : List Json} (h : as.length = bs.length) :
    (mergeItems as bs).length = bs.length := by
  induction as generalizing bs with
  | nil => rw [mergeItems]
  | cons a as ih =>
      cases bs with
      | nil => cases h
      | cons b bs => rw [mergeItems, List.length_cons, ih (Nat.succ.inj h), List.length_cons]

theorem head_merge (hhead : a.head = b.head) : (merge a b).head = b.head := by
  cases a <;> cases b <;> simp only [head, reduceCtorEq] at hhead
  case array.array as bs =>
    rw [merge, head, head, length_mergeItems (Head.array.inj hhead)]
  all_goals rfl

/-- A step into a merge leads into both values, if these are alike apart from what is in them. -/
theorem enter_merge (hb : b.hasDistinctKeys = true) (hhead : a.head = b.head) (s : Step) :
    (merge a b).enter s = Option.merge merge (a.enter s) (b.enter s) := by
  cases a <;> cases b <;> simp only [head, reduceCtorEq] at hhead
  case array.array as bs =>
    cases s with
    | key name => rfl
    | index i => exact getElem?_mergeItems as bs i
  case object.object as bs =>
    cases s with
    | key name => exact get?_mergeFields (hasDistinctKeys_object.mp hb).1 as name
    | index i => rfl
  all_goals cases s <;> rfl

/-- Values that agree are merged to what has at each location what either of them has. -/
theorem view_merge (hb : b.hasDistinctKeys = true) (h : Consistent a b) (loc : Location) :
    (merge a b).view loc = (a.view loc).or (b.view loc) := by
  induction loc generalizing a b with
  | nil =>
      rw [view_nil, view_nil, view_nil, head_merge h.head, ← h.head]
      rfl
  | cons s loc ih =>
      rw [view_cons, view_cons, view_cons, enter_merge hb h.head]
      cases hv : a.enter s with
      | none => cases b.enter s <;> rfl
      | some v =>
          cases hw : b.enter s with
          | none => exact (Option.or_none).symm
          | some w => exact ih (hasDistinctKeys_of_enter hb hw) (h.enter hv hw)

theorem view_merge_eq_some_iff (hb : b.hasDistinctKeys = true) (h : Consistent a b)
    (loc : Location) (g : Head) :
    (merge a b).view loc = some g ↔ a.view loc = some g ∨ b.view loc = some g := by
  rw [view_merge hb h]
  cases ha : a.view loc with
  | none => simp
  | some g' =>
      constructor
      · exact Or.inl
      · rintro (hg | hg)
        · exact hg
        · rw [h loc g' g ha hg]
          rfl

/-! ## Merging keeps keys distinct -/

mutual

theorem hasDistinctKeys_merge (a b : Json) (ha : a.hasDistinctKeys = true)
    (hb : b.hasDistinctKeys = true) : (merge a b).hasDistinctKeys = true := by
  cases b
  case array bs =>
    cases a
    case array as =>
      exact hasDistinctKeys_array.mpr (hasDistinctKeys_mergeItems as bs
        (hasDistinctKeys_array.mp ha) (hasDistinctKeys_array.mp hb))
    all_goals exact hb
  case object bs =>
    cases a
    case object as =>
      exact hasDistinctKeys_object.mpr (hasDistinctKeys_mergeFields as bs
        (hasDistinctKeys_object.mp ha) (hasDistinctKeys_object.mp hb).2)
    all_goals exact hb
  all_goals cases a <;> exact hb

theorem hasDistinctKeys_mergeItems (as bs : List Json)
    (ha : ∀ v ∈ as, v.hasDistinctKeys = true) (hb : ∀ v ∈ bs, v.hasDistinctKeys = true) :
    ∀ v ∈ mergeItems as bs, v.hasDistinctKeys = true := by
  match as, bs with
  | [], bs =>
    rw [mergeItems]
    exact hb
  | a :: as, [] =>
    rw [mergeItems]
    · exact ha
    · exact nofun
  | a :: as, b :: bs =>
    obtain ⟨ha, has⟩ := List.forall_mem_cons.mp ha
    obtain ⟨hb, hbs⟩ := List.forall_mem_cons.mp hb
    rw [mergeItems]
    exact List.forall_mem_cons.mpr
      ⟨hasDistinctKeys_merge a b ha hb, hasDistinctKeys_mergeItems as bs has hbs⟩

theorem hasDistinctKeys_mergeFields (as bs : List (String × Json))
    (ha : (Fields.keys as).Nodup ∧ ∀ e ∈ as, e.2.hasDistinctKeys = true)
    (hb : ∀ e ∈ bs, e.2.hasDistinctKeys = true) :
    (Fields.keys (mergeFields as bs)).Nodup ∧
      ∀ e ∈ mergeFields as bs, e.2.hasDistinctKeys = true := by
  match bs with
  | [] => exact ha
  | (key, b) :: bs =>
    obtain ⟨hb, hbs⟩ := List.forall_mem_cons.mp hb
    have hset : ∀ v : Json, v.hasDistinctKeys = true →
        (Fields.keys (Fields.set key v as)).Nodup ∧
          ∀ e ∈ Fields.set key v as, e.2.hasDistinctKeys = true := by
      intro v hv
      refine ⟨Fields.nodup_keys_set ha.1 key v, fun e he => ?_⟩
      rcases Fields.mem_set he with rfl | hmem
      · exact hv
      · exact ha.2 e hmem
    rw [mergeFields]
    refine hasDistinctKeys_mergeFields _ bs (hset _ ?_) hbs
    split
    · next a hkey => exact hasDistinctKeys_merge a b (ha.2 _ (Fields.mem_of_get? hkey)) hb
    · exact hb

end

/-- Fields with new keys come behind those that are there. -/
theorem mergeFields_of_nodup (as bs : Fields) (h : (Fields.keys (as ++ bs)).Nodup) :
    mergeFields as bs = as ++ bs := by
  induction bs generalizing as with
  | nil => rw [mergeFields, List.append_nil]
  | cons field bs ih =>
      obtain ⟨key, b⟩ := field
      have hnew : key ∉ Fields.keys as := by
        intro hmem
        rw [Fields.keys_append, Fields.keys_cons] at h
        exact (List.nodup_append.mp h).2.2 key hmem key List.mem_cons_self rfl
      rw [← List.singleton_append, ← List.append_assoc] at h ⊢
      rw [List.singleton_append, mergeFields, Fields.get?_eq_none_iff.mpr hnew,
        Fields.set_of_not_mem hnew, ih _ h]

/-- Anything may be merged into nothing. -/
theorem merge_emptyObject (hb : b.hasDistinctKeys = true) : merge emptyObject b = b := by
  cases b
  case object bs =>
    have hkeys := (hasDistinctKeys_object.mp hb).1
    rw [emptyObject, merge, mergeFields_of_nodup [] bs hkeys, List.nil_append]
  all_goals rfl

/-! ## Merging a list of values -/

/-- Values of a list that agree with each other are merged to what has at each location what any
of them has. -/
theorem view_foldl_merge {ws : List Json} (hdistinct : ∀ w ∈ ws, w.hasDistinctKeys = true)
    (h : ∀ v ∈ ws, ∀ w ∈ ws, Consistent v w) {r : Json} (hr : r.hasDistinctKeys = true)
    (hrws : ∀ w ∈ ws, Consistent r w) :
    (ws.foldl merge r).hasDistinctKeys = true ∧
      ∀ loc g, (ws.foldl merge r).view loc = some g ↔
        r.view loc = some g ∨ ∃ w ∈ ws, w.view loc = some g := by
  induction ws generalizing r with
  | nil => simp [hr]
  | cons w ws ih =>
      obtain ⟨hw, hws⟩ := List.forall_mem_cons.mp hdistinct
      obtain ⟨hrw, hrws⟩ := List.forall_mem_cons.mp hrws
      have hview := view_merge_eq_some_iff hw hrw
      -- what comes next agrees with both, and so with their merge
      have hnext : ∀ u ∈ ws, Consistent (merge r w) u := by
        intro u hu loc g g' hg hg'
        rcases (hview loc g).mp hg with hg | hg
        · exact hrws u hu loc g g' hg hg'
        · exact h w List.mem_cons_self u (List.mem_cons_of_mem w hu) loc g g' hg hg'
      have hws' : ∀ u ∈ ws, ∀ u' ∈ ws, Consistent u u' := fun u hu u' hu' =>
        h u (List.mem_cons_of_mem w hu) u' (List.mem_cons_of_mem w hu')
      obtain ⟨hkeys, hall⟩ := ih hws hws' (hasDistinctKeys_merge r w hr hw) hnext
      refine ⟨hkeys, fun loc g => ?_⟩
      rw [List.foldl_cons, hall, hview]
      simp only [List.mem_cons, exists_eq_or_imp, or_assoc]

end Json

end Chronicle
