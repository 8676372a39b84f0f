import Chronicle.Proofs.LedgerHistory
import Chronicle.Proofs.Pages
import Chronicle.Service.Events

set_option autoImplicit false

/-!
# Pages of entities

The service lists the entities of a type by their newest live events, page by page. Main statement:
as long as nothing changes, following the cursors shows each entity that has a live event once, in
the order of the newest of them, on pages that are all full but the last
(`MemoryEvents.pages_of_entityIds`).
-/

namespace Chronicle

namespace EventService

/-! ## The first of each key -/

section Firsts

variable {α β : Type} [BEq α] [LawfulBEq α]

/-- The items that are the first with their keys, except for those with a key in `seen`. -/
def firstsFrom (key : β → α) (seen : List α) : List β → List β
  | [] => []
  | b :: rest =>
      if seen.contains (key b) then firstsFrom key seen rest
      else b :: firstsFrom key (key b :: seen) rest

variable {key : β → α} {seen : List α} {items : List β} {b : β}

omit [LawfulBEq α] in
/-- The distinct keys of items are those of the first items. -/
theorem distinctFrom_map (key : β → α) (seen : List α) (items : List β) :
    distinctFrom seen (items.map key) = (firstsFrom key seen items).map key := by
  induction items generalizing seen with
  | nil => rfl
  | cons b rest ih =>
      rw [List.map_cons, distinctFrom, firstsFrom, ih, ih]
      split
      · rfl
      · rfl

omit [LawfulBEq α] in
theorem firstsFrom_sublist (key : β → α) (seen : List α) (items : List β) :
    (firstsFrom key seen items).Sublist items := by
  induction items generalizing seen with
  | nil => exact List.Sublist.refl _
  | cons b rest ih =>
      rw [firstsFrom]
      split
      · exact (ih seen).cons _
      · exact (ih _).cons_cons _

/-- The keys of the first items are those of all items that have not been seen. -/
theorem mem_keys_firstsFrom {a : α} :
    a ∈ (firstsFrom key seen items).map key ↔ a ∉ seen ∧ a ∈ items.map key := by
  induction items generalizing seen with
  | nil => simp [firstsFrom]
  | cons b rest ih =>
      rw [firstsFrom, List.map_cons, List.mem_cons]
      split
      · next hseen =>
          have hmem : key b ∈ seen := List.contains_iff_mem.mp hseen
          rw [ih]
          constructor
          · exact fun ⟨hnew, ha⟩ => ⟨hnew, Or.inr ha⟩
          · rintro ⟨hnew, rfl | ha⟩
            · exact absurd hmem hnew
            · exact ⟨hnew, ha⟩
      · next hseen =>
          have hnew : key b ∉ seen := fun hmem => hseen (List.contains_iff_mem.mpr hmem)
          rw [List.map_cons, List.mem_cons, ih, List.mem_cons, not_or]
          constructor
          · rintro (rfl | ⟨⟨-, hother⟩, ha⟩)
            · exact ⟨hnew, Or.inl rfl⟩
            · exact ⟨hother, Or.inr ha⟩
          · rintro ⟨hother, rfl | ha⟩
            · exact Or.inl rfl
            · by_cases hkey : a = key b
              · exact Or.inl hkey
              · exact Or.inr ⟨⟨hkey, hother⟩, ha⟩

theorem not_mem_seen (hb : b ∈ firstsFrom key seen items) : key b ∉ seen :=
  (mem_keys_firstsFrom.mp (List.mem_map_of_mem hb)).1

/-- No two of the first items have one key. -/
theorem nodup_keys_firstsFrom (key : β → α) (seen : List α) (items : List β) :
    ((firstsFrom key seen items).map key).Nodup := by
  induction items generalizing seen with
  | nil => exact List.nodup_nil
  | cons b rest ih =>
      rw [firstsFrom]
      split
      · exact ih seen
      · rw [List.map_cons, List.nodup_cons]
        refine ⟨fun hmem => ?_, ih _⟩
        exact (mem_keys_firstsFrom.mp hmem).1 List.mem_cons_self

/-- Each of the first items stands in front of the others with its key. -/
theorem firstsFrom_first {before : β → β → Prop} (h : items.Pairwise before)
    (hb : b ∈ firstsFrom key seen items) :
    ∀ x ∈ items, key x = key b → x = b ∨ before b x := by
  induction items generalizing seen with
  | nil => exact fun x hx => nomatch hx
  | cons y rest ih =>
      obtain ⟨hy, hrest⟩ := List.pairwise_cons.mp h
      have hnew := not_mem_seen hb
      rw [firstsFrom] at hb
      intro x hx hkey
      split at hb
      · next hseen =>
          -- the first item has been seen, so `x` comes behind it
          rcases List.mem_cons.mp hx with rfl | hx
          · exact absurd (List.contains_iff_mem.mp (hkey ▸ hseen)) hnew
          · exact ih hrest hb x hx hkey
      · rcases List.mem_cons.mp hb with rfl | hb
        · rcases List.mem_cons.mp hx with rfl | hx
          · exact Or.inl rfl
          · exact Or.inr (hy x hx)
        · rcases List.mem_cons.mp hx with rfl | hx
          · exact absurd (hkey ▸ List.mem_cons_self) (not_mem_seen hb)
          · exact ih hrest hb x hx hkey

end Firsts

end EventService

namespace Envelope

/-- A live event of an entity of the type. -/
structure IsLiveEventOf (e : Envelope) (entityType : EntityTypeName) : Prop where
  kind : e.kind = .event
  entityType : e.entityType = entityType
  live : e.isDeleted = false

end Envelope

/-- The query for the live events of a type. -/
theorem EventQuery.matches_liveOfType (entityType : EntityTypeName) (e : Envelope) :
    ({ events.live with entityType := some entityType } : EventQuery).matchesEnvelope e = true ↔
      e.IsLiveEventOf entityType := by
  have hparts : ({ events.live with entityType := some entityType } :
      EventQuery).matchesEnvelope e = true ↔
        e.kind = .event ∧ entityType = e.entityType ∧ e.isDeleted = false := by
    simp [matchesEnvelope, events, live, TimeRange.contains, and_assoc]
  rw [hparts]
  constructor
  · rintro ⟨hkind, htype, hlive⟩
    exact ⟨hkind, htype.symm, hlive⟩
  · rintro ⟨hkind, htype, hlive⟩
    exact ⟨hkind, htype.symm, hlive⟩

namespace StoredEnvelope

/-- Created later, or at the same time under the smaller id. -/
def Precedes (a b : StoredEnvelope) : Prop :=
  b.envelope.createdAt < a.envelope.createdAt ∨
    a.envelope.createdAt = b.envelope.createdAt ∧ Ord.compare a.id b.id = .lt

theorem precedes_of_compare {a b : StoredEnvelope}
    (h : StoredEnvelope.compare .newestFirst a b = .lt) : a.Precedes b := by
  rcases Ordering.then_eq_lt.mp h with htime | ⟨htime, hid⟩
  · exact Or.inl (Int.compare_eq_gt.mp (Ordering.swap_eq_lt.mp htime))
  · exact Or.inr ⟨Std.LawfulEqOrd.eq_of_compare (Ordering.swap_eq_eq.mp htime), hid⟩

end StoredEnvelope

namespace MemoryEvents

open EventService

variable {s : MemoryEvents} {c : Contents}

/-- The leading events of a type: of each entity with a live event the newest, and of several of
that time the one with the smallest id, the newest of all first. -/
structure Leading (s : MemoryEvents) (entityType : EntityTypeName)
    (leads : List StoredEnvelope) : Prop where
  stored : ∀ l ∈ leads, l ∈ s.ledger.allRecords ∧ l.envelope.IsLiveEventOf entityType
  first : ∀ l ∈ leads, ∀ r ∈ s.ledger.allRecords, r.envelope.IsLiveEventOf entityType →
    r.envelope.entityId = l.envelope.entityId → r = l ∨ l.Precedes r
  ordered : leads.Pairwise StoredEnvelope.Precedes
  distinct : (leads.map fun l => l.envelope.entityId).Nodup
  listed : ∀ id, (id ∈ leads.map fun l => l.envelope.entityId) ↔
    ∃ r ∈ s.ledger.allRecords, r.envelope.IsLiveEventOf entityType ∧ r.envelope.entityId = id

/-- The first events of the entities among all events in order are the leading ones. -/
theorem leading_firstsFrom {entityType : EntityTypeName} {events : List StoredEnvelope}
    (hsorted : events.Pairwise StoredEnvelope.Precedes)
    (hevents : ∀ r, r ∈ events ↔
      r ∈ s.ledger.allRecords ∧ r.envelope.IsLiveEventOf entityType) :
    s.Leading entityType (firstsFrom (fun r => r.envelope.entityId) [] events) where
  stored l hl := (hevents l).mp ((firstsFrom_sublist _ _ _).mem hl)
  first l hl r hr hlive hkey :=
    firstsFrom_first hsorted hl r ((hevents r).mpr ⟨hr, hlive⟩) hkey
  ordered := hsorted.sublist (firstsFrom_sublist _ _ _)
  distinct := nodup_keys_firstsFrom _ _ _
  listed id := by
    rw [mem_keys_firstsFrom, and_iff_right List.not_mem_nil, List.mem_map]
    simp only [hevents, and_assoc]

/-- The registry, unchanged by it, answers a page to the question for entities at a cursor. -/
def AnswersIds (s : MemoryEvents) (entityType : EntityTypeName) (limit : Nat)
    (cursor : Option Nat) (p : Page EntityId) : Prop :=
  entityIds registry entityType limit cursor s = (.ok p, s)

/-- Whatever the limit and the cursor, the page is the slice of one list of entities. -/
theorem answersIds_iff (h : s.ledger.Represents c) (entityType : EntityTypeName) :
    ∃ leads, s.Leading entityType leads ∧ ∀ limit cursor p,
      s.AnswersIds entityType limit cursor p ↔
        p = .slice (leads.map fun l => l.envelope.entityId) limit (cursor.getD 0) := by
  obtain ⟨events, hanswer, -, hsorted, hfound⟩ := query_answer h
    { EventQuery.events.live with entityType := some entityType } .newestFirst
  have hevents : ∀ r, r ∈ events ↔
      r ∈ s.ledger.allRecords ∧ r.envelope.IsLiveEventOf entityType := by
    intro r
    rw [hfound, EventQuery.matches_liveOfType, h.mem_allRecords]
  refine ⟨_, leading_firstsFrom (hsorted.imp StoredEnvelope.precedes_of_compare) hevents, ?_⟩
  intro limit cursor p
  rw [AnswersIds, entityIds, Fallible.bind_of_ok hanswer, ← distinctFrom_map]
  constructor
  · intro hp
    exact (Except.ok.inj (Prod.ext_iff.mp hp).1).symm
  · rintro rfl
    rfl

/--
In every state that a registry in memory comes to, for every entity type and positive limit: the
pages at all cursors are slices of one list, that of the ids of the entities of the type with a
live event, each once, in the order of the newest of these events, ties by the smallest id of an
event of that time. As long as nothing changes the cursors can be followed to a page without one,
and whoever does so sees the whole list on pages that are all full but the last, which has no
cursor and is empty only if there is no such entity.
-/
theorem pages_of_entityIds (h : Reached s c) (entityType : EntityTypeName) (limit : Nat)
    (hlimit : 1 ≤ limit) :
    ∃ leads, s.Leading entityType leads ∧
      (∀ cursor p, s.AnswersIds entityType limit cursor p ↔
        p = .slice (leads.map fun l => l.envelope.entityId) limit (cursor.getD 0)) ∧
      (∃ pages, Page.Walk (s.AnswersIds entityType limit) none pages) ∧
      ∀ pages, Page.Walk (s.AnswersIds entityType limit) none pages →
        (pages.flatMap Page.items = leads.map fun l => l.envelope.entityId) ∧
        ∃ front last, pages = front ++ [last] ∧ (∀ p ∈ front, p.items.length = limit) ∧
          last.cursor = none ∧ (last.items = [] → leads = []) := by
  obtain ⟨leads, hleading, hanswers⟩ := answersIds_iff (represents_of_reached h) entityType
  have hslice := fun cursor p => (hanswers limit cursor p).mp
  refine ⟨leads, hleading, hanswers limit, ?_, fun pages hwalk => ⟨?_, ?_⟩⟩
  · exact Page.exists_walk hlimit (fun cursor => (hanswers limit cursor _).mpr rfl) none
  · exact hwalk.flatMap_items hslice
  · obtain ⟨front, last, hpages, hfull, hlast, hsome⟩ := hwalk.eq_append hslice
    exact ⟨front, last, hpages, hfull, hlast, fun hempty => List.map_eq_nil_iff.mp (hsome hempty)⟩

/-- Another cart. -/
def secondCart : EntityKey :=
  ⟨cart.entityType, ⟨"c2", by decide, by decide, by decide, by decide⟩⟩

/-- Two carts that are visited in turns, the first of them last; the event of a third visit is
deleted. -/
def twoCarts : MemoryEvents :=
  ⟨.ofRecords [⟨.ofNat 1, cartEvent⟩,
    ⟨.ofNat 2, .event secondCart cartEvent.typeName .null ⟨2⟩⟩,
    ⟨.ofNat 3, .event cart cartEvent.typeName .null ⟨3⟩⟩,
    ⟨.ofNat 4, (Envelope.event secondCart cartEvent.typeName .null ⟨4⟩).tombstone ⟨5⟩⟩] [],
    ⟨.ofNat, 5⟩⟩

/-- One cart on a page: the second page is full and the last. -/
theorem pages_of_twoCarts :
    Page.Walk (twoCarts.AnswersIds cart.entityType 1) none
        [⟨[cart.entityId], some 1⟩, ⟨[secondCart.entityId], none⟩] ∧
      ∃ leads, twoCarts.Leading cart.entityType leads ∧
        (leads.map fun l => l.envelope.entityId) = [cart.entityId, secondCart.entityId] := by
  have h : Reached twoCarts _ := Reached.fromRecords _ _ _
  obtain ⟨leads, hleading, -, -, hpages⟩ := pages_of_entityIds h cart.entityType 1 (by decide)
  have hwalk : Page.Walk (twoCarts.AnswersIds cart.entityType 1) none
      [⟨[cart.entityId], some 1⟩, ⟨[secondCart.entityId], none⟩] :=
    .next rfl rfl (.last rfl rfl)
  exact ⟨hwalk, leads, hleading, (hpages _ hwalk).1.symm⟩

end MemoryEvents

end Chronicle
